import Rankwise.Proofs.Preparation

/-!
# From arguments to what the ranks compute with

Arguments whose frames are at hand, held by the coordinator or stored by a live group, can always be
shipped (`PreparedCall.prepare_atHand`). What is sent of them is data and names of results only, and
what a rank makes of exactly these messages is its portion of the arguments
(`CallArguments.round_trip`).
-/

namespace Rankwise

/-- The frame, if the table is one. -/
def ContextTable.frame? : ContextTable → Option Frame
  | frame found => some found
  | path _ | data _ => none

namespace Argument

mutual

/-- The frames in an argument, in order. -/
def frames : Argument → List Frame
  | value _ => []
  | frame found => [found]
  | tuple items => framesIn items
  | context found => found.tables.filterMap fun entry => entry.2.frame?

/-- The frames in some arguments. -/
def framesIn : List Argument → List Frame
  | [] => []
  | item :: rest => frames item ++ framesIn rest

end

end Argument

/-- The frames in the arguments of a call. -/
def CallArguments.frames (arguments : CallArguments) : List Frame :=
  arguments.positional.flatMap Argument.frames ++
    arguments.keyword.flatMap fun entry => entry.2.frames

/-- The coordinator holds the frame or a live group stores it. -/
def Frame.IsAtHand (isLive : Handle → Bool) (frame : Frame) : Prop :=
  ∀ handle, frame.handle? = some handle → isLive handle = true

namespace Shipment

variable (isLive : Handle → Bool) (parameter : String) (replicated : Bool)

/-- Looking at several things goes well if looking at each of them does. -/
theorem Looking.mapM_eq {α β : Type} (step : α → Looking β) (result : α → β) (items : List α)
    (each : ∀ item ∈ items, ∀ noted, ∃ later, (step item).run noted = .ok (result item, later))
    (noted : List String) :
    ∃ later, (items.mapM step).run noted = .ok (items.map result, later) := by
  induction items generalizing noted with
  | nil => exact ⟨noted, rfl⟩
  | cons item rest inductionHypothesis =>
    obtain ⟨eachHere, others⟩ := List.forall_mem_cons.mp each
    obtain ⟨middle, first⟩ := eachHere noted
    obtain ⟨later, second⟩ := inductionHypothesis others middle
    rw [List.mapM_cons]
    exact ⟨later, Looking.bind first (Looking.bind second rfl)⟩

/-- A frame that is at hand can be shipped. -/
theorem ofFrame_eq (frame : Frame) (atHand : frame.IsAtHand isLive) (noted : List String) :
    ∃ later, (ofFrame isLive parameter replicated frame).run noted =
      .ok (frame.transfer replicated, later) := by
  cases frame with
  | collected table => exact ⟨_, rfl⟩
  | distributed partitioned handle =>
    have live := atHand handle rfl
    refine ⟨noted, ?_⟩
    simp only [ofFrame, Frame.residency, live, if_true]
    rfl

/-- A context is shipped as `Argument.shipment` says, whatever names were noted before. -/
theorem ofContext_eq (found : ContextArgument)
    (atHand : ∀ frame ∈ (Argument.context found).frames, frame.IsAtHand isLive)
    (noted : List String) :
    ∃ later, (ofContext isLive parameter replicated found).run noted =
      .ok ((Argument.context found).shipment replicated, later) := by
  rw [Argument.shipment]
  unfold ofContext
  split
  case isTrue bare => exact ⟨noted, rfl⟩
  case isFalse full =>
    have tables (entry : String × ContextTable) (member : entry ∈ found.tables)
        (noted : List String) : ∃ later, (do
          return (entry.1, ← ofContextTable isLive parameter replicated entry.2) :
            Looking (String × TableShipment)).run noted =
          .ok ((entry.1, entry.2.shipment replicated), later) := by
      obtain ⟨name, table⟩ := entry
      cases table with
      | path path => exact ⟨noted, rfl⟩
      | data table => exact ⟨_, rfl⟩
      | frame frame =>
        have here := atHand frame (by
          rw [Argument.frames]
          exact List.mem_filterMap.mpr ⟨_, member, rfl⟩)
        obtain ⟨later, shipped⟩ := ofFrame_eq isLive parameter replicated frame here noted
        exact ⟨later, Looking.bind (Looking.bind shipped rfl) rfl⟩
    obtain ⟨later, shipped⟩ := Looking.mapM_eq _ _ found.tables tables noted
    exact ⟨later, Looking.bind shipped rfl⟩

mutual

/-- An argument whose frames are at hand can be shipped. -/
theorem ofArgument_eq (argument : Argument)
    (atHand : ∀ frame ∈ argument.frames, frame.IsAtHand isLive) (noted : List String) :
    ∃ later, (ofArgument isLive parameter replicated argument).run noted =
      .ok (argument.shipment replicated, later) := by
  cases argument with
  | value value => exact ofValue_eq parameter replicated value noted
  | frame frame =>
    obtain ⟨later, shipped⟩ := ofFrame_eq isLive parameter replicated frame
      (atHand frame (List.mem_singleton_self frame)) noted
    exact ⟨later, Looking.bind shipped rfl⟩
  | tuple items =>
    obtain ⟨later, shipped⟩ := ofArguments_eq items atHand noted
    exact ⟨later, Looking.bind shipped rfl⟩
  | context found => exact ofContext_eq isLive parameter replicated found atHand noted

/-- So are the items of a tuple. -/
theorem ofArguments_eq (items : List Argument)
    (atHand : ∀ frame ∈ Argument.framesIn items, frame.IsAtHand isLive) (noted : List String) :
    ∃ later, (ofArguments isLive parameter replicated items).run noted =
      .ok (Argument.shipments replicated items, later) := by
  cases items with
  | nil => exact ⟨noted, rfl⟩
  | cons item rest =>
    obtain ⟨middle, first⟩ := ofArgument_eq item
      (fun frame member => atHand frame (List.mem_append_left _ member)) noted
    obtain ⟨later, second⟩ := ofArguments_eq rest
      (fun frame member => atHand frame (List.mem_append_right _ member)) middle
    exact ⟨later, Looking.bind first (Looking.bind second rfl)⟩

end

end Shipment

namespace PreparedCall

variable (isLive : Handle → Bool) (computation : Computation) (arguments : CallArguments)

/-- What goes well is gone on with. -/
theorem goes_on {α β : Type} {first : Except Failure α} {value : α} (well : first = .ok value)
    (next : α → Except Failure β) : (first >>= next) = next value := by
  rw [well]
  rfl

/-- A call can be prepared if all frames in its arguments are at hand. -/
theorem prepare_atHand (ordered : arguments.IsOrdered)
    (atHand : ∀ frame ∈ arguments.frames, frame.IsAtHand isLive) :
    ∃ prepared, prepare isLive computation arguments = .ok prepared := by
  obtain ⟨noted, shipped⟩ : ∃ noted,
      (shipPositional isLive computation arguments.positional).run [] =
        .ok ((arguments.flagged computation).map
          fun entry => (entry.2, entry.2.shipment entry.1), noted) := by
    rw [CallArguments.flagged, List.map_map]
    refine Shipment.Looking.mapM_eq _ _ _ (fun entry member noted => ?_) []
    have listed : entry.1 ∈ arguments.positional := by
      rw [← List.zipIdx_map_fst 0 arguments.positional]
      exact List.mem_map_of_mem member
    obtain ⟨later, looked⟩ := Shipment.ofArgument_eq isLive (computation.parameterName entry.2)
      (computation.isReplicated (computation.parameterName entry.2)) entry.1
      (fun frame found => atHand frame (List.mem_append_left _
        (List.mem_flatMap.mpr ⟨entry.1, listed, found⟩))) noted
    exact ⟨later, Shipment.Looking.bind looked rfl⟩
  obtain ⟨later, shippedKeyword⟩ : ∃ later,
      (shipKeyword isLive computation arguments.keyword).run noted =
        .ok ((arguments.flaggedKeyword computation).map
          fun entry => (entry.1, entry.2.2, entry.2.2.shipment entry.2.1), later) := by
    rw [CallArguments.flaggedKeyword, List.map_map]
    refine Shipment.Looking.mapM_eq _ _ _ (fun entry member noted => ?_) noted
    obtain ⟨later, looked⟩ := Shipment.ofArgument_eq isLive entry.1
      (computation.isReplicated entry.1) entry.2
      (fun frame found => atHand frame (List.mem_append_right _
        (List.mem_flatMap.mpr ⟨entry, member, found⟩))) noted
    exact ⟨later, Shipment.Looking.bind looked rfl⟩
  obtain ⟨skeletons, made, -⟩ := Worker.takes_positional (arguments.flagged computation)
    fun entry member => ordered.1 entry.2 (by
      rw [← arguments.flagged_arguments computation]
      exact List.mem_map_of_mem member)
  obtain ⟨keywordSkeletons, madeKeyword, -⟩ :=
    Worker.takes_keyword (arguments.flaggedKeyword computation)
      fun entry member => ordered.2 (entry.1, entry.2.2) (by
        rw [← arguments.flaggedKeyword_arguments computation]
        exact List.mem_map_of_mem (f := fun entry => (entry.1, entry.2.2)) member)
  -- All four steps of the preparation have gone well, and this is what they have made.
  refine ⟨{
    computation := computation.withDistributed later
    positional := (arguments.flagged computation).map fun entry =>
      (entry.2, entry.2.shipment entry.1)
    keyword := (arguments.flaggedKeyword computation).map fun entry =>
      (entry.1, entry.2.2, entry.2.2.shipment entry.2.1)
    skeletons := .arguments skeletons keywordSkeletons }, ?_⟩
  refine (goes_on shipped _).trans ?_
  refine (goes_on shippedKeyword _).trans ?_
  refine (goes_on made _).trans ?_
  exact (goes_on madeKeyword _).trans rfl

end PreparedCall

/-- Whether the message carries a part of an argument: a table, or the name of a result. -/
def Message.isPart : Message → Bool
  | data _ | resultId _ => true
  | _ => false

/-! Besides the skeletons only parts of arguments are sent. -/

namespace Value

variable (replicated : Bool) (size rank : Nat) {message : Message}

mutual

/-- A value sends nothing but parts of tables. -/
theorem isPart_of_parcels (value : Value) (sent : message ∈ value.parcels replicated size rank) :
    message.isPart = true := by
  cases value with
  | table batch =>
    obtain rfl := List.mem_singleton.mp sent
    rfl
  | tuple items => exact isPart_of_parcelsOf items sent
  | map entries => exact isPart_of_entryParcels entries sent
  | null | scalar | function | context | json => cases sent

/-- So do the items of a tuple. -/
theorem isPart_of_parcelsOf (items : List Value)
    (sent : message ∈ parcelsOf replicated size rank items) : message.isPart = true := by
  cases items with
  | nil => cases sent
  | cons item rest =>
    rcases List.mem_append.mp sent with here | there
    · exact isPart_of_parcels item here
    · exact isPart_of_parcelsOf rest there

/-- So do the entries of a map. -/
theorem isPart_of_entryParcels (entries : List (String × Value))
    (sent : message ∈ entryParcels replicated size rank entries) : message.isPart = true := by
  cases entries with
  | nil => cases sent
  | cons entry rest =>
    rcases List.mem_append.mp sent with here | there
    · exact isPart_of_parcels entry.2 here
    · exact isPart_of_entryParcels rest there

end

end Value

/-- A frame sends nothing but parts of its table. -/
theorem Frame.isPart_of_parcels (replicated : Bool) (size rank : Nat) {message : Message}
    (frame : Frame) (sent : message ∈ frame.parcels replicated size rank) :
    message.isPart = true := by
  cases frame <;> obtain rfl := List.mem_singleton.mp sent <;> rfl

/-- A table of a context sends nothing but parts of it. -/
theorem ContextTable.isPart_of_parcels (replicated : Bool) (size rank : Nat) {message : Message}
    (table : ContextTable) (sent : message ∈ table.parcels replicated size rank) :
    message.isPart = true := by
  cases table with
  | path path => cases sent
  | data batch =>
    obtain rfl := List.mem_singleton.mp sent
    rfl
  | frame frame => exact frame.isPart_of_parcels replicated size rank sent

namespace Argument

variable (replicated : Bool) (size rank : Nat) {message : Message}

mutual

/-- An argument sends nothing but parts of tables. -/
theorem isPart_of_parcels (argument : Argument)
    (sent : message ∈ argument.parcels replicated size rank) : message.isPart = true := by
  cases argument with
  | value value => exact value.isPart_of_parcels replicated size rank sent
  | frame frame => exact frame.isPart_of_parcels replicated size rank sent
  | tuple items => exact isPart_of_parcelsOf items sent
  | context found =>
    obtain ⟨entry, -, here⟩ := List.mem_flatMap.mp sent
    exact entry.2.isPart_of_parcels replicated size rank here

/-- So do the arguments in a tuple. -/
theorem isPart_of_parcelsOf (items : List Argument)
    (sent : message ∈ parcelsOf replicated size rank items) : message.isPart = true := by
  cases items with
  | nil => cases sent
  | cons item rest =>
    rcases List.mem_append.mp sent with here | there
    · exact isPart_of_parcels item here
    · exact isPart_of_parcelsOf rest there

end

end Argument

/-- Nothing is missing where all results are stored. -/
theorem Worker.missingOf_eq_none {rank : Nat} {store : ResultStore} {mentioned : List ResultId}
    (stored : ∀ id ∈ mentioned, (store.find? id).isSome) :
    missingOf rank store mentioned = none := by
  rw [missingOf, Option.map_eq_none_iff, List.find?_eq_none]
  intro id member missing
  have found := stored id member
  rw [Option.isNone_iff_eq_none.mp missing] at found
  cases found

namespace CallArguments

variable (isLive : Handle → Bool) (computation : Computation) (arguments : CallArguments)
  (group : Group) (fleet : Fleet)

/-- All that follows the arguments of a call are parts of tables. -/
theorem isPart_of_parcels (size rank : Nat) {message : Message}
    (sent : message ∈ arguments.parcels computation size rank) : message.isPart = true := by
  rcases List.mem_append.mp sent with positional | keyword
  · obtain ⟨entry, -, here⟩ := List.mem_flatMap.mp positional
    exact entry.2.isPart_of_parcels entry.1 size rank here
  · obtain ⟨entry, -, here⟩ := List.mem_flatMap.mp keyword
    exact entry.2.2.isPart_of_parcels entry.2.1 size rank here

/-- Arguments whose frames are at hand can be prepared, and sending them goes well whatever the
workers are about. Of tables and results each rank is sent exactly what it takes in when it receives
the arguments, and it comes to its portion of them if it stores the results that are named. -/
theorem round_trip (ordered : arguments.IsOrdered)
    (atHand : ∀ frame ∈ arguments.frames, frame.IsAtHand isLive)
    (sized : fleet.size group.link = group.size) (manned : 0 < group.size) :
    ∃ prepared positional keyword,
      PreparedCall.prepare isLive computation arguments = .ok prepared ∧
        prepared.skeletons = .arguments positional keyword ∧
        group.Hands fleet (do
            prepared.positional.forM fun (argument, shipment) => Group.sendData argument shipment
            prepared.keyword.forM fun (_, argument, shipment) => Group.sendData argument shipment)
          (fun rank => arguments.parcels computation group.size rank) ∧
        (∀ rank, ∀ message ∈ arguments.parcels computation group.size rank,
          message.isPart = true) ∧
        ∀ (worker : Worker) (store : ResultStore), worker.size = group.size →
          (∀ id ∈ arguments.mentioned, (store.find? id).isSome) →
          Receives (worker.receiveAll positional keyword) store {}
            (arguments.parcels computation group.size worker.rank)
            ((arguments.portion computation group.size worker.rank store).positional,
              (arguments.portion computation group.size worker.rank store).keyword)
            { named := arguments.named } := by
  obtain ⟨prepared, found⟩ := PreparedCall.prepare_atHand isLive computation arguments ordered atHand
  have fits := PreparedCall.prepare_ok isLive computation arguments prepared found
  obtain ⟨positional, keyword, same, takes⟩ :=
    Worker.takes_prepared computation arguments prepared fits ordered
  refine ⟨prepared, positional, keyword, found, same, ?_, ?_, ?_⟩
  · exact group.hands_prepared fleet sized manned computation arguments prepared fits ordered
  · exact fun rank _ sent => arguments.isPart_of_parcels computation group.size rank sent
  · intro worker store size stored
    have taken := takes worker store
    rw [size, Worker.Intake.after, Worker.missingOf_eq_none stored] at taken
    exact taken

/-- A table of two rows. -/
def twoRows : Batch := ⟨⟨[⟨"a", .int64, false⟩]⟩, [[.int64 1, .int64 2]], 2⟩

/-- The first parameter is replicated. -/
def mixing : Computation :=
  { name := "mix", parameters := ["whole", "split"], options := { replicated := ["whole"] } }

/-- A table within a tuple for the first parameter, and for the second one a frame that lies on the
workers beside a context with a table. -/
def mixed : CallArguments where
  positional :=
    [.value (.tuple [.table twoRows, .function "f"]),
      .tuple [
        .frame (.distributed ⟨⟨"r"⟩, twoRows.schema, [2, 1]⟩ ⟨0, ⟨"r"⟩, 1, ⟨0⟩⟩),
        .context { tables := [("p", .path "x"), ("t", .data twoRows)], timeZone := some "UTC" }]]

/-- The second of two ranks takes in the whole table, the name of the result and its own block. -/
theorem mixed_round_trip :
    ∃ prepared positional keyword,
      PreparedCall.prepare (fun _ => true) mixing mixed = .ok prepared ∧
        prepared.skeletons = .arguments positional keyword ∧
        Receives (Worker.receiveAll ⟨1, 2, .builtins⟩ positional keyword) [(⟨"r"⟩, twoRows)] {}
          [.data twoRows, .resultId ⟨"r"⟩, .data (twoRows.slice 1 1)]
          ([.tuple [.table twoRows, .function "f"],
            .tuple [.table twoRows,
              .context { tables := [("p", .path "x"), ("t", .data (twoRows.slice 1 1))],
                         timeZone := some "UTC" }]], [])
          { named := [⟨"r"⟩] } := by
  let fleet : Fleet := {
    sizes := [2], registry := .builtins
    line := fun _ rank => .atRest ⟨rank, 2, .builtins⟩ [] }
  have ordered : mixed.IsOrdered := by
    refine ⟨?_, nofun⟩
    intro argument member
    rcases List.mem_cons.mp member with rfl | last
    · exact ⟨trivial, trivial, trivial⟩
    · obtain rfl := List.mem_singleton.mp last
      exact ⟨trivial, List.pairwise_pair.mpr (by decide : "p" < "t"), trivial⟩
  obtain ⟨prepared, positional, keyword, found, same, -, -, takes⟩ :=
    round_trip (fun _ => true) mixing mixed ⟨⟨0⟩, 2, 1, false, false⟩ fleet ordered
      (fun _ _ _ _ => rfl) rfl (by decide)
  refine ⟨prepared, positional, keyword, found, same, ?_⟩
  exact takes ⟨1, 2, .builtins⟩ [(⟨"r"⟩, twoRows)] rfl (by decide)

end CallArguments

end Rankwise

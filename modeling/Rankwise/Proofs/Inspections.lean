import Rankwise.Proofs.RoundTrip

/-!
# What looking at arguments finds

`CallArguments.tables` lists the tables in the arguments of a call, each with its parameter: tables
in values, tables of contexts, and frames. Looking at the arguments goes well only if all of them
are at hand. Then the parameters of those that the coordinator holds were noted, and no others. It
fails only at a table whose group is no more, and names the result and its parameter.

`Looks` says this of looking at anything. The rules for it follow the ways in which looking is
composed of looking at parts, and one case per kind of argument leads to `looks_argument`. For the
preparation of a whole call it follows when it fails (`PreparedCall.prepare_stale`) and what is
noted when it does not (`PreparedCall.prepare_notes`).
-/

namespace Rankwise

namespace Value

mutual

/-- The tables in a value, in order. Those of a context in it travel within the value and do not
count. -/
def tables : Value → List Batch
  | table batch => [batch]
  | tuple items => tablesIn items
  | map entries => tablesInEntries entries
  | _ => []

/-- The tables in some values. -/
def tablesIn : List Value → List Batch
  | [] => []
  | item :: rest => tables item ++ tablesIn rest

/-- The tables in the values of some entries. -/
def tablesInEntries : List (String × Value) → List Batch
  | [] => []
  | (_, entry) :: rest => tables entry ++ tablesInEntries rest

end

end Value

/-- The table, unless the workers read it themselves. -/
def ContextTable.table? : ContextTable → Option Frame
  | path _ => none
  | data table => some (.collected table)
  | frame found => some found

namespace Argument

mutual

/-- The tables in an argument, in order. -/
def tables : Argument → List Frame
  | value found => found.tables.map Frame.collected
  | frame found => [found]
  | tuple items => tablesIn items
  | context found => found.tables.filterMap fun entry => entry.2.table?

/-- The tables in some arguments. -/
def tablesIn : List Argument → List Frame
  | [] => []
  | item :: rest => tables item ++ tablesIn rest

end

end Argument

namespace CallArguments

variable (arguments : CallArguments) (computation : Computation)

/-- The tables in the positional arguments, each with its parameter. -/
def positionalTables : List (String × Frame) :=
  arguments.positional.zipIdx.flatMap fun (argument, index) =>
    argument.tables.map (computation.parameterName index, ·)

/-- The tables in the named arguments, each with its parameter. -/
def keywordTables : List (String × Frame) :=
  arguments.keyword.flatMap fun (name, argument) => argument.tables.map (name, ·)

/-- The tables in the arguments of a call, each with its parameter. -/
def tables : List (String × Frame) :=
  arguments.positionalTables computation ++ arguments.keywordTables

end CallArguments

namespace Shipment

/-- A parameter is added to those that were noted. -/
theorem mem_note (parameter name : String) (noted : List String) :
    name ∈ note parameter noted ↔ name ∈ noted ∨ name = parameter := by
  unfold note
  split
  case isTrue listed =>
    constructor
    · exact .inl
    · rintro (there | rfl)
      · exact there
      · exact List.contains_iff_mem.mp listed
  case isFalse => simp

variable {α β : Type} {isLive : Handle → Bool}

/-- What looking at the tables of some parameters comes to. -/
structure Looks (isLive : Handle → Bool) (looking : Looking α) (tables : List (String × Frame)) :
    Prop where
  well : ∀ noted value later, looking.run noted = .ok (value, later) →
    (∀ entry ∈ tables, entry.2.IsAtHand isLive) ∧
      ∀ name, name ∈ later ↔
        name ∈ noted ∨ ∃ table, (name, table) ∈ tables ∧ table.isDistributed = false
  failed : ∀ noted failure, looking.run noted = .error failure →
    ∃ entry ∈ tables, ∃ id, entry.2.residency isLive = .stale id ∧
      failure = staleFrame entry.1 id

namespace Looks

variable {looking : Looking α} {tables others : List (String × Frame)}

/-- To give a value looks at no table. -/
theorem nothing (value : α) : Looks isLive (pure value : Looking α) [] where
  well noted value later found := by
    obtain ⟨-, rfl⟩ := Prod.mk.inj (Except.ok.inj found)
    simp
  failed noted failure found := by cases found

/-- The tables that are looked at first come first. -/
theorem bind {continuation : α → Looking β} (first : Looks isLive looking tables)
    (second : ∀ value, Looks isLive (continuation value) others) :
    Looks isLive (looking >>= continuation) (tables ++ others) where
  well noted value later found := by
    obtain ⟨middle, noted', here, there⟩ := Looking.bind_ok found
    obtain ⟨atHand, notes⟩ := first.well _ _ _ here
    obtain ⟨atHandToo, notesToo⟩ := (second middle).well _ _ _ there
    refine ⟨List.forall_mem_append.mpr ⟨atHand, atHandToo⟩, fun name => ?_⟩
    rw [notesToo, notes]
    simp only [List.mem_append, or_and_right, exists_or, or_assoc]
  failed noted failure found := by
    rw [StateT.run_bind] at found
    cases here : looking.run noted with
    | error stop =>
      rw [here] at found
      obtain rfl := Except.error.inj found
      obtain ⟨entry, member, stale⟩ := first.failed _ _ here
      exact ⟨entry, List.mem_append_left _ member, stale⟩
    | ok outcome =>
      rw [here] at found
      obtain ⟨entry, member, stale⟩ := (second outcome.1).failed _ _ found
      exact ⟨entry, List.mem_append_right _ member, stale⟩

/-- What is made of a finding does not matter. -/
theorem map (result : α → β) (first : Looks isLive looking tables) :
    Looks isLive (do return result (← looking)) tables := by
  have whole := first.bind fun value => nothing (result value)
  rwa [List.append_nil] at whole

/-- The tables of all items are looked at, one item after the other. -/
theorem mapM (items : List α) {step : α → Looking β} {found : α → List (String × Frame)}
    (each : ∀ item ∈ items, Looks isLive (step item) (found item)) :
    Looks isLive (items.mapM step) (items.flatMap found) := by
  induction items with
  | nil => exact nothing []
  | cons item rest inductionHypothesis =>
    obtain ⟨here, others⟩ := List.forall_mem_cons.mp each
    rw [List.mapM_cons, List.flatMap_cons]
    exact here.bind fun result => (inductionHypothesis others).map (result :: ·)

end Looks

variable (isLive) (parameter : String) (replicated : Bool)

/-- A table that the coordinator holds is at hand, and its parameter is noted. -/
theorem looks_table (table : Batch) :
    Looks isLive (ofTable parameter replicated) [(parameter, .collected table)] where
  well noted value later found := by
    obtain ⟨-, rfl⟩ := Prod.mk.inj (Except.ok.inj found)
    constructor
    · rintro entry member handle owned
      obtain rfl := List.mem_singleton.mp member
      cases owned
    · intro name
      simp [mem_note, Frame.isDistributed]
  failed noted failure found := by cases found

/-- A frame is one table to be looked at. -/
theorem looks_frame (frame : Frame) :
    Looks isLive (ofFrame isLive parameter replicated frame) [(parameter, frame)] := by
  cases frame with
  | collected table => exact looks_table isLive parameter replicated table
  | distributed partitioned handle =>
    cases live : isLive handle with
    | true =>
      have looked : ofFrame isLive parameter replicated (.distributed partitioned handle) =
          pure .lazy := by
        simp only [ofFrame, Frame.residency, live, if_true]
      rw [looked]
      constructor
      · intro noted value later found
        obtain ⟨-, rfl⟩ := Prod.mk.inj (Except.ok.inj found)
        simp [Frame.IsAtHand, Frame.handle?, Frame.isDistributed, live]
      · intro noted failure found
        cases found
    | false =>
      have looked : ofFrame isLive parameter replicated (.distributed partitioned handle) =
          throw (staleFrame parameter handle.id) := by
        simp [ofFrame, Frame.residency, live]
      rw [looked]
      constructor
      · intro noted value later found
        cases found
      · intro noted failure found
        obtain rfl := Except.error.inj found
        exact ⟨_, List.mem_singleton_self _, handle.id, by simp [Frame.residency, live], rfl⟩

/-- A table of a context is looked at unless the workers read it themselves. -/
theorem looks_contextTable (table : ContextTable) :
    Looks isLive (ofContextTable isLive parameter replicated table)
      (table.table?.toList.map (parameter, ·)) := by
  cases table with
  | path path => exact .nothing _
  | data table => exact (looks_table isLive parameter replicated table).map TableShipment.placeholder
  | frame frame => exact (looks_frame isLive parameter replicated frame).map TableShipment.placeholder

/-- The tables of a context are looked at, one after the other. -/
theorem looks_context (found : ContextArgument) :
    Looks isLive (ofContext isLive parameter replicated found)
      ((Argument.context found).tables.map (parameter, ·)) := by
  have listed : (Argument.context found).tables.map (parameter, ·) =
      found.tables.flatMap fun entry => entry.2.table?.toList.map (parameter, ·) := by
    rw [Argument.tables, List.filterMap_eq_flatMap_toList, List.map_flatMap]
  unfold ofContext
  split
  case isTrue bare =>
    rw [listed, List.isEmpty_iff.mp bare]
    exact .nothing _
  case isFalse full =>
    rw [listed]
    have each := Looks.mapM found.tables fun entry _ =>
      (looks_contextTable isLive parameter replicated entry.2).map (entry.1, ·)
    exact each.map _

mutual

/-- The tables in a value are looked at, and the coordinator holds them. -/
theorem looks_value (value : Value) :
    Looks isLive (ofValue parameter replicated value)
      (value.tables.map fun table => (parameter, .collected table)) := by
  cases value with
  | table table => exact (looks_table isLive parameter replicated table).map transfer
  | tuple items => exact (looks_values items).map _
  | map entries => exact (looks_entries entries).map _
  | _ => exact .nothing _

/-- The tables in several values are looked at, one value after the other. -/
theorem looks_values (items : List Value) :
    Looks isLive (ofValues parameter replicated items)
      ((Value.tablesIn items).map fun table => (parameter, .collected table)) := by
  cases items with
  | nil => exact .nothing []
  | cons item rest =>
    rw [Value.tablesIn, List.map_append]
    exact (looks_value item).bind fun shipment => (looks_values rest).map (shipment :: ·)

/-- The tables in several entries are looked at, one entry after the other. -/
theorem looks_entries (entries : List (String × Value)) :
    Looks isLive (ofEntries parameter replicated entries)
      ((Value.tablesInEntries entries).map fun table => (parameter, .collected table)) := by
  cases entries with
  | nil => exact .nothing []
  | cons entry rest =>
    rw [Value.tablesInEntries, List.map_append]
    exact (looks_value entry.2).bind fun shipment =>
      (looks_entries rest).map ((entry.1, shipment) :: ·)

end

mutual

/-- What looking at an argument comes to. -/
theorem looks_argument (argument : Argument) :
    Looks isLive (ofArgument isLive parameter replicated argument)
      (argument.tables.map (parameter, ·)) := by
  cases argument with
  | value value =>
    rw [Argument.tables, List.map_map]
    exact looks_value isLive parameter replicated value
  | frame frame => exact (looks_frame isLive parameter replicated frame).map transfer
  | tuple items => exact (looks_arguments items).map tuple
  | context found => exact looks_context isLive parameter replicated found

/-- The tables in several arguments are looked at, one argument after the other. -/
theorem looks_arguments (items : List Argument) :
    Looks isLive (ofArguments isLive parameter replicated items)
      ((Argument.tablesIn items).map (parameter, ·)) := by
  cases items with
  | nil => exact .nothing []
  | cons item rest =>
    rw [Argument.tablesIn, List.map_append]
    exact (looks_argument item).bind fun shipment => (looks_arguments rest).map (shipment :: ·)

end

end Shipment

namespace PreparedCall

variable (isLive : Handle → Bool) (computation : Computation) (arguments : CallArguments)

/-- The tables in the positional arguments are looked at, each for its parameter. -/
theorem looks_positional :
    Shipment.Looks isLive (shipPositional isLive computation arguments.positional)
      (arguments.positionalTables computation) := by
  refine Shipment.Looks.mapM _ fun (argument, index) _ => ?_
  exact (Shipment.looks_argument isLive (computation.parameterName index) _ argument).map _

/-- The tables in the named arguments are looked at, each for its parameter. -/
theorem looks_keyword :
    Shipment.Looks isLive (shipKeyword isLive computation arguments.keyword)
      arguments.keywordTables := by
  refine Shipment.Looks.mapM _ fun (name, argument) _ => ?_
  exact (Shipment.looks_argument isLive name _ argument).map _

/-- A call with a table whose group is no more cannot be prepared. Such a table is named as the
reason. -/
theorem prepare_stale
    (stale : ∃ entry ∈ arguments.tables computation, ¬ entry.2.IsAtHand isLive) :
    ∃ entry ∈ arguments.tables computation, ∃ id, entry.2.residency isLive = .stale id ∧
      prepare isLive computation arguments = .error (Shipment.staleFrame entry.1 id) := by
  have positionalLooks := looks_positional isLive computation arguments
  have keywordLooks := looks_keyword isLive computation arguments
  unfold prepare
  cases shipped : (shipPositional isLive computation arguments.positional).run [] with
  | error failure =>
    obtain ⟨entry, member, id, gone, rfl⟩ := positionalLooks.failed _ _ shipped
    exact ⟨entry, List.mem_append_left _ member, id, gone, rfl⟩
  | ok outcome =>
    obtain ⟨positional, noted⟩ := outcome
    obtain ⟨positionalAtHand, -⟩ := positionalLooks.well _ _ _ shipped
    cases shippedKeyword : (shipKeyword isLive computation arguments.keyword).run noted with
    | error failure =>
      obtain ⟨entry, member, id, gone, rfl⟩ := keywordLooks.failed _ _ shippedKeyword
      refine ⟨entry, List.mem_append_right _ member, id, gone, ?_⟩
      refine (goes_on rfl _).trans ?_
      dsimp only
      rw [shippedKeyword]
      rfl
    | ok outcome =>
      -- All tables have been looked at, and none of them stopped it.
      obtain ⟨keywordAtHand, -⟩ := keywordLooks.well _ _ _ shippedKeyword
      obtain ⟨entry, member, gone⟩ := stale
      exact absurd (List.forall_mem_append.mpr ⟨positionalAtHand, keywordAtHand⟩ entry member) gone

/-- Where a call is prepared, the parameters of the tables that the coordinator holds are added to
those that the computation lists. -/
theorem prepare_notes (prepared : PreparedCall)
    (found : prepare isLive computation arguments = .ok prepared) :
    ∃ noted, prepared.computation = computation.withDistributed noted ∧
      ∀ name, name ∈ noted ↔
        ∃ table, (name, table) ∈ arguments.tables computation ∧ table.isDistributed = false := by
  obtain ⟨⟨positional, noted⟩, shipped, found⟩ := bind_ok found
  obtain ⟨⟨keyword, later⟩, shippedKeyword, found⟩ := bind_ok found
  obtain ⟨skeletons, -, found⟩ := bind_ok found
  obtain ⟨keywordSkeletons, -, found⟩ := bind_ok found
  obtain rfl := Except.ok.inj found
  obtain ⟨-, notes⟩ := (looks_positional isLive computation arguments).well _ _ _ shipped
  obtain ⟨-, notesToo⟩ := (looks_keyword isLive computation arguments).well _ _ _ shippedKeyword
  refine ⟨later, rfl, fun name => ?_⟩
  rw [notesToo, notes]
  simp [CallArguments.tables, or_and_right, exists_or]

end PreparedCall

end Rankwise

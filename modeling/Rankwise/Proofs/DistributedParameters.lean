import Rankwise.Proofs.Inspections
import Rankwise.Proofs.Serving

/-!
# Which parameters count as distributed

A computation can ask whether a parameter arrived as a partition. What it is told was noted by the
coordinator when it looked at the arguments, and came with the call. It notes the parameters of the
tables that it sends, in blocks or whole, and not those of the results that it only names.

So the answer is right exactly if, for a replicated parameter, tables are sent just where results
are named, and for any other parameter, a table is sent wherever a result is named. Main statement:
`isDistributed_exact`.
-/

namespace Rankwise

/-- Parameters are added to those that were listed. -/
theorem Computation.mem_withDistributed (computation : Computation) (parameters : List String)
    (name : String) :
    name ∈ (computation.withDistributed parameters).options.distributedBlock ↔
      name ∈ computation.options.distributedBlock ∨ name ∈ parameters := by
  have added (known : List String) :
      name ∈ parameters.foldl (fun known parameter => Shipment.note parameter known) known ↔
        name ∈ known ∨ name ∈ parameters := by
    induction parameters generalizing known with
    | nil => simp
    | cons parameter rest inductionHypothesis =>
      rw [List.foldl_cons, inductionHypothesis, Shipment.mem_note, List.mem_cons, or_assoc]
  exact added _

/-- A worker that has received a prepared call computes with what the call lists. -/
theorem Worker.leads_prepared (worker : Worker) (isLive : Handle → Bool) (computation : Computation)
    (arguments : CallArguments) (prepared : PreparedCall)
    (ready : PreparedCall.prepare isLive computation arguments = .ok prepared)
    (ordered : arguments.IsOrdered) (environment : Named String) (call : CallId)
    (store : ResultStore) (stored : ∀ id ∈ arguments.mentioned, (store.find? id).isSome) :
    ∃ continuation : Except Failure Output → Serving Unit,
      Session.Leads (worker.next store (.ok (.command .execute)))
        (.environment environment :: prepared.skeletons ::
          (arguments.parcels computation worker.size worker.rank ++
            [.computation prepared.computation call])) []
        ((worker.runComputation {
            rank := worker.rank, size := worker.size, environment
            distributed := prepared.computation.options.distributedBlock } computation.name
          (arguments.portion computation worker.size worker.rank store) >>=
            continuation).run.run store) := by
  have fits := PreparedCall.prepare_ok isLive computation arguments prepared ready
  obtain ⟨positional, keyword, same, takes⟩ :=
    Worker.takes_prepared computation arguments prepared fits ordered
  have taken := takes worker store
  rw [Intake.after, missingOf_eq_none stored] at taken
  have led := worker.leads_compute environment positional keyword
    (arguments.parcels computation worker.size worker.rank) prepared.computation call
    (arguments.portion computation worker.size worker.rank store) _ store taken
  rw [same, ← fits.name]
  exact ⟨_, led⟩

namespace CallArguments

variable (arguments : CallArguments) (computation : Computation) (parameter : String)

/-- The coordinator sends a table for the parameter. -/
def SendsTable : Prop :=
  ∃ table, (parameter, table) ∈ arguments.tables computation ∧ table.isDistributed = false

/-- The coordinator names a result for the parameter. -/
def NamesResult : Prop :=
  ∃ table, (parameter, table) ∈ arguments.tables computation ∧ table.isDistributed = true

/-- Some table of the parameter reaches each rank as a part, and not as a full copy. -/
def ArrivesInParts : Prop :=
  ∃ table, (parameter, table) ∈ arguments.tables computation ∧
    table.transfer (computation.isReplicated parameter) ≠ .broadcast

/-- Only the tables that are sent for a replicated parameter reach the ranks as full copies. -/
theorem arrivesInParts_iff :
    arguments.ArrivesInParts computation parameter ↔
      arguments.NamesResult computation parameter ∨
        computation.isReplicated parameter = false ∧ arguments.SendsTable computation parameter := by
  have parted (table : Frame) :
      table.transfer (computation.isReplicated parameter) ≠ .broadcast ↔
        table.isDistributed = true ∨
          computation.isReplicated parameter = false ∧ table.isDistributed = false := by
    cases table <;> cases computation.isReplicated parameter <;>
      simp [Frame.transfer, Frame.isDistributed, Shipment.transferOf]
  simp only [ArrivesInParts, parted, NamesResult, SendsTable, and_or_left, exists_or]
  refine or_congr_right ?_
  constructor
  · rintro ⟨table, member, single, held⟩
    exact ⟨single, table, member, held⟩
  · rintro ⟨single, table, member, held⟩
    exact ⟨table, member, single, held⟩

/-- Of a computation that lists no parameters itself, those are listed for which tables are sent. -/
theorem mem_distributedBlock (isLive : Handle → Bool) (prepared : PreparedCall)
    (plain : computation.options.distributedBlock = [])
    (ready : PreparedCall.prepare isLive computation arguments = .ok prepared) :
    parameter ∈ prepared.computation.options.distributedBlock ↔
      arguments.SendsTable computation parameter := by
  obtain ⟨noted, same, notes⟩ := PreparedCall.prepare_notes isLive computation arguments prepared ready
  rw [same, computation.mem_withDistributed, plain, notes]
  simp [SendsTable]

/-- A computation lists no distributed parameters itself, and a rank that stores the results that
the call mentions has received the call. It computes with its portion of the arguments, and is told
that a parameter is distributed exactly if the coordinator sends a table for it. This is true of
those parameters of which some table arrived as a partition, exactly as long as tables are sent for
a replicated parameter just where results are named for it, and for any other parameter wherever
results are named. -/
theorem isDistributed_exact (isLive : Handle → Bool) (prepared : PreparedCall)
    (plain : computation.options.distributedBlock = [])
    (ready : PreparedCall.prepare isLive computation arguments = .ok prepared)
    (ordered : arguments.IsOrdered) (worker : Worker) (environment : Named String) (call : CallId)
    (store : ResultStore) (stored : ∀ id ∈ arguments.mentioned, (store.find? id).isSome) :
    ∃ (context : CallContext) (continuation : Except Failure Output → Serving Unit),
      Session.Leads (worker.next store (.ok (.command .execute)))
          (.environment environment :: prepared.skeletons ::
            (arguments.parcels computation worker.size worker.rank ++
              [.computation prepared.computation call])) []
          ((worker.runComputation context computation.name
            (arguments.portion computation worker.size worker.rank store) >>=
              continuation).run.run store) ∧
        ∀ parameter,
          (context.isDistributed parameter = true ↔ arguments.SendsTable computation parameter) ∧
            ((context.isDistributed parameter = true ↔
                arguments.ArrivesInParts computation parameter) ↔
              if computation.isReplicated parameter then
                (arguments.SendsTable computation parameter ↔
                  arguments.NamesResult computation parameter)
              else
                (arguments.NamesResult computation parameter →
                  arguments.SendsTable computation parameter)) := by
  obtain ⟨continuation, led⟩ := worker.leads_prepared isLive computation arguments prepared ready
    ordered environment call store stored
  refine ⟨_, continuation, led, fun parameter => ?_⟩
  have told : CallContext.isDistributed {
        rank := worker.rank, size := worker.size, environment
        distributed := prepared.computation.options.distributedBlock } parameter = true ↔
      arguments.SendsTable computation parameter := by
    rw [CallContext.isDistributed, List.contains_iff_mem]
    exact arguments.mem_distributedBlock computation parameter isLive prepared plain ready
  refine ⟨told, ?_⟩
  rw [told, arguments.arrivesInParts_iff computation parameter]
  split_ifs with replicated <;> simp [replicated]

/-- A table of two rows is handed to the parameter `df`. -/
def oneTable : CallArguments where
  keyword := [("df", .value (.table twoRows))]

/-- The arguments are in order. -/
theorem oneTable_ordered : oneTable.IsOrdered := by
  refine ⟨nofun, fun entry member => ?_⟩
  obtain rfl := List.mem_singleton.mp member
  trivial

/-- A call with these arguments can be prepared. -/
theorem oneTable_prepared (computation : Computation) :
    ∃ prepared, PreparedCall.prepare (fun _ => true) computation oneTable = .ok prepared :=
  PreparedCall.prepare_atHand _ computation oneTable oneTable_ordered fun _ _ _ _ => rfl

/-- The call sends a table for the parameter `df`. -/
theorem oneTable_sends (computation : Computation) : oneTable.SendsTable computation "df" :=
  ⟨.collected twoRows, by
    simp [tables, positionalTables, keywordTables, oneTable, Argument.tables, Value.tables], rfl⟩

/-- The second of two ranks has one of the two rows and is told so. -/
theorem block_isDistributed :
    ∃ prepared context continuation,
      PreparedCall.prepare (fun _ => true) { name := "echo" } oneTable = .ok prepared ∧
        Session.Leads (Worker.next ⟨1, 2, .builtins⟩ [] (.ok (.command .execute)))
          [.environment [], prepared.skeletons, .data (twoRows.slice 1 1),
            .computation prepared.computation (.ofCounter 0)] []
          ((Worker.runComputation ⟨1, 2, .builtins⟩ context "echo"
            { positional := [], keyword := [("df", .table (twoRows.slice 1 1))] } >>=
              continuation).run.run []) ∧
        context.isDistributed "df" = true ∧ oneTable.ArrivesInParts { name := "echo" } "df" := by
  obtain ⟨prepared, ready⟩ := oneTable_prepared { name := "echo" }
  obtain ⟨context, continuation, led, told⟩ := oneTable.isDistributed_exact { name := "echo" }
    (fun _ => true) prepared rfl ready oneTable_ordered ⟨1, 2, .builtins⟩ [] (.ofCounter 0) [] nofun
  have marked := (told "df").1.mpr (oneTable_sends _)
  refine ⟨prepared, context, continuation, ready, led, marked, ?_⟩
  exact ((told "df").2.mpr fun _ => oneTable_sends _).mp marked

/-- If the parameter is replicated, every rank has the full table and is told otherwise. -/
theorem copy_isDistributed :
    ∃ prepared continuation, ∃ context : CallContext,
      PreparedCall.prepare (fun _ => true)
          { name := "echo", options := { replicated := ["df"] } } oneTable = .ok prepared ∧
        Session.Leads (Worker.next ⟨1, 2, .builtins⟩ [] (.ok (.command .execute)))
          [.environment [], prepared.skeletons, .data twoRows,
            .computation prepared.computation (.ofCounter 0)] []
          ((Worker.runComputation ⟨1, 2, .builtins⟩ context "echo"
            { positional := [], keyword := [("df", .table twoRows)] } >>=
              continuation).run.run []) ∧
        context.isDistributed "df" = true ∧
        ¬ oneTable.ArrivesInParts { name := "echo", options := { replicated := ["df"] } } "df" := by
  obtain ⟨prepared, ready⟩ :=
    oneTable_prepared { name := "echo", options := { replicated := ["df"] } }
  obtain ⟨continuation, led⟩ := Worker.leads_prepared ⟨1, 2, .builtins⟩ (fun _ => true) _ oneTable
    prepared ready oneTable_ordered [] (.ofCounter 0) [] nofun
  have listed := (oneTable.mem_distributedBlock _ "df" (fun _ => true) prepared rfl ready).mpr
    (oneTable_sends _)
  refine ⟨prepared, continuation, _, ready, led, List.contains_iff_mem.mpr listed, ?_⟩
  rintro ⟨table, member, parted⟩
  obtain rfl : table = .collected twoRows := by
    simpa [tables, positionalTables, keywordTables, oneTable, Argument.tables, Value.tables]
      using member
  exact parted rfl

end CallArguments

end Rankwise

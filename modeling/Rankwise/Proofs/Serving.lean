import Rankwise.Proofs.Preparation

/-!
# How a worker serves a call

A worker that waits and is handed the messages of a call says how the computation went on its rank
and then waits for the word to go on. `Worker.answer?` is that outcome, said without messages: the
failure of a missing result, or what the computation gives for the arguments of the rank. Told to go
on, it hands over its output and the sizes of the named results and keeps its partitions; told not
to, it keeps what it has. Either way it waits for a command again.
-/

namespace Rankwise

namespace Output

mutual

/-- The partitions in the output, in order. -/
def partitions : Output → List Batch
  | replicated _ => []
  | distributed partition => [partition]
  | tuple items => partitionsOf items
  | map entries => entryPartitions entries

/-- The partitions in the items, in order. -/
def partitionsOf : List Output → List Batch
  | [] => []
  | item :: rest => partitions item ++ partitionsOf rest

/-- The partitions in the entries, in order. -/
def entryPartitions : List (String × Output) → List Batch
  | [] => []
  | (_, entry) :: rest => partitions entry ++ entryPartitions rest

end

mutual

/-- What a rank sends of the output, besides its shape. -/
def sent (rank : Nat) : Output → List Message
  | replicated value => if rank = 0 then [.value value] else []
  | distributed partition => [.partitionMeta (some (.ofBatch partition))]
  | tuple items => sentOf rank items
  | map entries => entrySent rank entries

/-- What a rank sends of the items. -/
def sentOf (rank : Nat) : List Output → List Message
  | [] => []
  | item :: rest => sent rank item ++ sentOf rank rest

/-- What a rank sends of the entries. -/
def entrySent (rank : Nat) : List (String × Output) → List Message
  | [] => []
  | (_, entry) :: rest => sent rank entry ++ entrySent rank rest

end

end Output

/-- Different outputs of a call have different names. -/
theorem ResultId.ofOutput_injective (call : CallId) (leaf other : Nat)
    (same : ResultId.ofOutput call leaf = ResultId.ofOutput call other) : leaf = other := by
  have written : toString leaf = toString other :=
    (String.append_right_inj _).mp (ResultId.mk.inj same)
  have digits : Nat.toDigits 10 leaf = Nat.toDigits 10 other := by
    rw [← Nat.toList_repr, ← Nat.toList_repr]
    exact congrArg String.toList written
  rw [← Nat.ofDigitChars_ten_toDigits (n := leaf), digits, Nat.ofDigitChars_ten_toDigits]

namespace ResultStore

/-- Keeps partitions as the outputs of a call, numbered from `leaf` on. -/
def keep (call : CallId) : Nat → List Batch → ResultStore → ResultStore
  | _, [], store => store
  | leaf, partition :: rest, store =>
    keep call (leaf + 1) rest (store.put (.ofOutput call leaf) partition)

/-- To erase a result takes away this result and no other. -/
theorem find?_erase (store : ResultStore) (id other : ResultId) :
    (store.erase id).find? other = if other = id then none else store.find? other := by
  induction store with
  | nil => simp [erase, find?]
  | cons entry rest inductionHypothesis =>
    simp only [erase, find?] at inductionHypothesis ⊢
    by_cases same : entry.1 = id
    · rw [List.filter_cons_of_neg (by simp [same]), inductionHypothesis, List.lookup_cons]
      by_cases here : other = id
      · simp [here]
      · rw [if_neg here, if_neg here, beq_false_of_ne (same ▸ here)]
    · rw [List.filter_cons_of_pos (by simp [same]), List.lookup_cons, List.lookup_cons,
        inductionHypothesis]
      by_cases here : other = id
      · simp [here, beq_false_of_ne (Ne.symm same)]
      · rw [if_neg here, if_neg here]

/-- To put a result there changes this result and no other. -/
theorem find?_put (store : ResultStore) (id other : ResultId) (partition : Batch) :
    (store.put id partition).find? other =
      if other = id then some partition else store.find? other := by
  have erased := find?_erase store id other
  simp only [find?] at erased
  simp only [put, find?, List.lookup_append, erased, List.lookup_cons, List.lookup_nil]
  by_cases here : other = id
  · simp [here]
  · simp [here, beq_false_of_ne here]

/-- What is kept under other names is not touched by the outputs of a call. -/
theorem find?_keep_of_ne (call : CallId) (leaf : Nat) (partitions : List Batch)
    (store : ResultStore) (id : ResultId)
    (apart : ∀ place < partitions.length, id ≠ .ofOutput call (leaf + place)) :
    (store.keep call leaf partitions).find? id = store.find? id := by
  induction partitions generalizing leaf store with
  | nil => rfl
  | cons partition rest inductionHypothesis =>
    have apartRest (place : Nat) (inside : place < rest.length) :
        id ≠ .ofOutput call (leaf + 1 + place) := by
      rw [Nat.add_right_comm, Nat.add_assoc]
      exact apart (place + 1) (by simpa using inside)
    have apartFirst : id ≠ .ofOutput call leaf := apart 0 (Nat.zero_lt_succ _)
    rw [keep, inductionHypothesis (leaf + 1) _ apartRest, find?_put, if_neg apartFirst]

/-- The outputs of a call are kept under their names. -/
theorem find?_keep (call : CallId) (leaf : Nat) (partitions : List Batch) (store : ResultStore)
    (place : Nat) (inside : place < partitions.length) :
    (store.keep call leaf partitions).find? (.ofOutput call (leaf + place)) =
      partitions[place]? := by
  induction partitions generalizing leaf place store with
  | nil => cases inside
  | cons partition rest inductionHypothesis =>
    cases place with
    | zero =>
      rw [keep, find?_keep_of_ne call (leaf + 1) rest _ _ fun place _ same => by
        have := ResultId.ofOutput_injective call _ _ same
        omega]
      exact (find?_put _ _ _ partition).trans (if_pos rfl)
    | succ place =>
      have found := inductionHypothesis (leaf + 1) (store.put (.ofOutput call leaf) partition) place
        (by simpa using inside)
      rw [Nat.add_right_comm, Nat.add_assoc] at found
      exact found

/-- Partitions are kept one after the other, under the numbers of their leaves. -/
theorem keep_append (call : CallId) (leaf : Nat) (first second : List Batch)
    (store : ResultStore) :
    store.keep call leaf (first ++ second) =
      (store.keep call leaf first).keep call (leaf + first.length) second := by
  induction first generalizing leaf store with
  | nil => rfl
  | cons partition rest inductionHypothesis =>
    rw [List.cons_append, keep, inductionHypothesis, List.length_cons, keep,
      Nat.add_right_comm, Nat.add_assoc]

end ResultStore

namespace Worker

variable (worker : Worker)

mutual

/-- A worker sends of an output what `Output.sent` says and keeps its partitions. -/
theorem serves_output (call : CallId) (leaf : Nat) (output : Output) (store : ResultStore) :
    Serves (worker.sendOutput call leaf output) store [] (output.sent worker.rank)
      (leaf + output.partitions.length) (store.keep call leaf output.partitions) := by
  cases output with
  | replicated value =>
    rw [sendOutput, Output.sent]
    split
    · exact Serves.bind (Serves.send _ store) (Serves.pure leaf store)
    · exact Serves.pure leaf store
  | distributed partition =>
    rw [sendOutput]
    exact Serves.bindQuiet (Serves.modify _ store)
      (Serves.bindSending (Serves.send _ _) (Serves.pure _ _))
  | tuple items => exact serves_outputs call leaf items store
  | map entries => exact serves_entries call leaf entries store

/-- So it does for the items of a tuple. -/
theorem serves_outputs (call : CallId) (leaf : Nat) (items : List Output) (store : ResultStore) :
    Serves (worker.sendOutputs call leaf items) store [] (Output.sentOf worker.rank items)
      (leaf + (Output.partitionsOf items).length)
      (store.keep call leaf (Output.partitionsOf items)) := by
  cases items with
  | nil => exact Serves.pure leaf store
  | cons item rest =>
    rw [sendOutputs, Output.partitionsOf, ResultStore.keep_append, List.length_append,
      ← Nat.add_assoc]
    exact Serves.bindSending (serves_output call leaf item store)
      (serves_outputs call _ rest _)

/-- So it does for the entries of a map. -/
theorem serves_entries (call : CallId) (leaf : Nat) (entries : List (String × Output))
    (store : ResultStore) :
    Serves (worker.sendEntries call leaf entries) store [] (Output.entrySent worker.rank entries)
      (leaf + (Output.entryPartitions entries).length)
      (store.keep call leaf (Output.entryPartitions entries)) := by
  cases entries with
  | nil => exact Serves.pure leaf store
  | cons entry rest =>
    obtain ⟨name, entry⟩ := entry
    rw [sendEntries, Output.entryPartitions, ResultStore.keep_append, List.length_append,
      ← Nat.add_assoc]
    exact Serves.bindSending (serves_output call leaf entry store)
      (serves_entries call _ rest _)

end

/-- What a worker says about a named result. -/
def report (store : ResultStore) (id : ResultId) : Message :=
  .partitionMeta ((store.find? id).map .ofBatch)

/-- Asked for named results, a worker reports each of them in turn. -/
theorem serves_reports (named : List ResultId) (store : ResultStore) :
    Serves (named.forM reportNamed) store [] (named.map (report store)) () store := by
  induction named with
  | nil => exact Serves.pure () store
  | cons id rest inductionHypothesis =>
    have first : Serves (reportNamed id) store [] [report store id] () store :=
      Serves.bindQuiet (Serves.get store) (Serves.send _ store)
    exact Serves.bindSending first inductionHypothesis

/-- What a computation gives on the worker, and what the worker stores then. Nothing is given by a
computation that ends the worker or never comes to its end. -/
def run? (context : CallContext) (name : String) (given : Arguments) (store : ResultStore) :
    Option (Except Failure Output × ResultStore) :=
  match (worker.registry.call context name given).run store with
  | (.ok output, later) => some (.ok output, later)
  | (.error (.failed failure), later) => some (.error failure, later)
  | (.error (.panicked message), later) => some (.error (panicked name message), later)
  | (.error _, _) => none

/-- A worker runs a computation without a word on the line. -/
theorem serves_computation (context : CallContext) (name : String) (given : Arguments)
    (store later : ResultStore) (outcome : Except Failure Output)
    (runs : worker.run? context name given store = some (outcome, later)) :
    Serves (worker.runComputation context name given) store [] [] outcome later := by
  have result : (worker.runComputation context name given).run.run store =
      .done (.ok outcome, later) := by
    unfold run? at runs
    unfold runComputation
    split at runs
    all_goals simp_all [ExceptT.run, StateT.run, ExceptT.mk]
  unfold Serves
  rw [result]
  exact .refl _

/-- A computation that gives nothing ends the worker. -/
theorem computation_ends (context : CallContext) (name : String) (given : Arguments)
    (store : ResultStore) (unanswered : worker.run? context name given store = none) :
    ∃ how later, (worker.runComputation context name given).run.run store =
      .done (.error how, later) := by
  unfold run? at unanswered
  unfold runComputation
  split at unanswered
  case h_4 interrupt later fails breaks interrupted =>
    cases interrupt with
    | failed failure => exact (fails failure rfl).elim
    | panicked message => exact (breaks message rfl).elim
    | exited =>
      refine ⟨.vanished, later, ?_⟩
      simp_all [ExceptT.run, StateT.run, ExceptT.mk]
    | unending =>
      refine ⟨.hung, later, ?_⟩
      simp_all [ExceptT.run, StateT.run, ExceptT.mk]
  all_goals cases unanswered

/-- How a call goes on the worker, and what the worker stores then: a mentioned result that it does
not store is a failure, and otherwise the computation decides. -/
def answer? (worker : Worker) (computation : Computation) (environment : Named String)
    (mentioned : List ResultId) (given : Arguments) (store : ResultStore) :
    Option (Except Failure Output × ResultStore) :=
  match missingOf worker.rank store mentioned with
  | some failure => some (.error failure, store)
  | none =>
    let context : CallContext := {
      rank := worker.rank, size := worker.size, environment
      distributed := computation.options.distributedBlock }
    worker.run? context computation.name given store

/-- What is left of a call once the worker has said how it went. -/
def conclude (worker : Worker) (call : CallId) (named : List ResultId)
    (outcome : Except Failure Output) : Serving Unit := do
  let goOn ← receive Message.expectProceed
  match outcome, goOn with
  | .ok output, true =>
    if worker.rank = 0 then send (.outputShape output.distribution)
    let _ ← worker.sendOutput call 0 output
    named.forM reportNamed
  | _, _ => return

/-- What a worker reports of an outcome. -/
def status (outcome : Except Failure Output) : Message :=
  .status (match outcome with
    | .ok _ => none
    | .error failure => some (.ofFailure failure))

/-- What is left of a call once all of its messages but the word to go on have arrived. -/
def compute (worker : Worker) (environment : Named String) (computation : Computation)
    (call : CallId) (given : Arguments) (intake : Intake) : Serving Unit := do
  let context : CallContext := {
    rank := worker.rank, size := worker.size, environment
    distributed := computation.options.distributedBlock }
  let outcome ← match intake.missing with
    | some failure => pure (.error failure)
    | none => worker.runComputation context computation.name given
  send .completed
  send (status outcome)
  worker.conclude call intake.named outcome

/-- A call up to the computation. -/
theorem leads_compute (environment : Named String) (positional : List Skeleton)
    (keyword : Named Skeleton) (parcels : List Message) (computation : Computation) (call : CallId)
    (given : Arguments) (intake : Intake) (store : ResultStore)
    (taken : Receives (receiveAll worker positional keyword) store {} parcels
      (given.positional, given.keyword) intake) :
    Session.Leads (worker.next store (.ok (.command .execute)))
      (.environment environment :: .arguments positional keyword ::
        (parcels ++ [.computation computation call])) []
      ((worker.compute environment computation call given intake).run.run store) := by
  have accepted : Serves (accept Message.expectCommand (.ok (.command .execute))) store [] []
      .execute store := .refl _
  refine Session.Leads.quiet (Serves.begin accepted) ?_
  refine Session.Leads.taking
    (Serves.begin (Serves.receive environment rfl)) ?_
  refine Session.Leads.taking
    (Serves.begin (Serves.receive (positional, keyword) rfl)) ?_
  refine Session.Leads.takingAll (Serves.begin taken) ?_
  refine Session.Leads.taking
    (Serves.begin (Serves.receive (computation, call) rfl)) ?_
  exact .refl _

/-- A call up to the word of the coordinator. -/
theorem leads_call (environment : Named String) (positional : List Skeleton)
    (keyword : Named Skeleton) (parcels : List Message) (computation : Computation) (call : CallId)
    (given : Arguments) (intake : Intake) (store later : ResultStore)
    (outcome : Except Failure Output)
    (taken : Receives (receiveAll worker positional keyword) store {} parcels
      (given.positional, given.keyword) intake)
    (answered : (match intake.missing with
      | some failure => some (.error failure, store)
      | none => worker.run? {
          rank := worker.rank, size := worker.size, environment
          distributed := computation.options.distributedBlock } computation.name given store) =
        some (outcome, later)) :
    Session.Leads (worker.next store (.ok (.command .execute)))
      (.environment environment :: .arguments positional keyword ::
        (parcels ++ [.computation computation call]))
      [.completed, status outcome]
      ((worker.conclude call intake.named outcome).run.run later) := by
  have begun := worker.leads_compute environment positional keyword parcels computation call given
    intake store taken
  rw [← List.append_nil (_ :: _)]
  refine begun.trans ?_
  have told : Session.Leads ((do
        send .completed
        send (status outcome)
        worker.conclude call intake.named outcome : Serving Unit).run.run later)
      [] [.completed, status outcome] ((worker.conclude call intake.named outcome).run.run later) :=
    Session.Leads.sending (Serves.begin (Serves.send .completed later))
      (Serves.begin (Serves.send (status outcome) later))
  unfold compute
  -- If a stored result is missing, the computation is not run, and this failure is reported.
  cases missing : intake.missing with
  | some failure =>
    rw [missing] at answered
    obtain ⟨rfl, rfl⟩ := Prod.mk.inj (Option.some.inj answered)
    exact Session.Leads.quiet (Serves.begin (Serves.pure _ store)) told
  | none =>
    rw [missing] at answered
    exact Session.Leads.quiet
      (Serves.begin (worker.serves_computation _ _ given store later outcome answered)) told

/-- A worker whose computation gives nothing ends without a word. -/
theorem settled_silent (environment : Named String) (computation : Computation) (call : CallId)
    (given : Arguments) (intake : Intake) (store : ResultStore) (present : intake.missing = none)
    (unanswered : worker.run? {
        rank := worker.rank, size := worker.size, environment
        distributed := computation.options.distributedBlock } computation.name given store = none) :
    ∃ how, Station.settled worker
      ((worker.compute environment computation call given intake).run.run store) =
        ([], .ended how) := by
  obtain ⟨how, later, stopped⟩ := worker.computation_ends _ _ given store unanswered
  refine ⟨how, ?_⟩
  unfold compute
  rw [present]
  have begun (continuation : Except Failure Output → Serving Unit) (context : CallContext)
      (stopped : (worker.runComputation context computation.name given).run.run store =
        .done (.error how, later)) :
      (worker.runComputation context computation.name given >>= continuation).run.run store =
        .done (.error how, later) := by
    have whole : (worker.runComputation context computation.name given >>= continuation).run.run
        store = Session.bind ((worker.runComputation context computation.name given).run.run store)
          (fun (answer, store) => ExceptT.bindCont continuation answer store) := rfl
    rw [whole, stopped]
    rfl
  dsimp only
  rw [begun _ _ stopped]
  rfl

/-- Told to drop its output, the worker keeps what it has. -/
theorem serves_drop (call : CallId) (named : List ResultId) (outcome : Except Failure Output)
    (store : ResultStore) :
    Serves (worker.conclude call named outcome) store [.proceed false] [] () store := by
  refine Serves.bindTaking (Serves.receive false rfl) ?_
  cases outcome <;> exact Serves.pure () store

/-- What a worker sends that is told to hand over its output. -/
def handedOver (rank : Nat) (output : Output) (named : List ResultId) (later : ResultStore) :
    List Message :=
  (if rank = 0 then [.outputShape output.distribution] else []) ++ output.sent rank ++
    named.map (report later)

/-- Told to go on, the worker hands over its output and keeps its partitions. -/
theorem serves_handOver (call : CallId) (named : List ResultId) (output : Output)
    (store : ResultStore) :
    Serves (worker.conclude call named (.ok output)) store [.proceed true]
      (handedOver worker.rank output named (store.keep call 0 output.partitions)) ()
      (store.keep call 0 output.partitions) := by
  have ordered : handedOver worker.rank output named (store.keep call 0 output.partitions) =
      (if worker.rank = 0 then [.outputShape output.distribution] else []) ++
        (output.sent worker.rank ++
          named.map (report (store.keep call 0 output.partitions))) := List.append_assoc _ _ _
  rw [ordered]
  refine Serves.bindTaking (Serves.receive true rfl) ?_
  have rest : Serves (do
        let _ ← worker.sendOutput call 0 output
        named.forM reportNamed)
      store [] (output.sent worker.rank ++ named.map (report (store.keep call 0 output.partitions)))
      () (store.keep call 0 output.partitions) :=
    Serves.bindSending (worker.serves_output call 0 output store)
      (serves_reports named _)
  by_cases first : worker.rank = 0
  · simp only [if_pos first]
    exact Serves.bindSending (Serves.send _ store) rest
  · simp only [if_neg first]
    exact rest

/-- Asked for a partition, the worker sends it if it stores it. -/
theorem serves_gather (id : ResultId) (store : ResultStore) :
    Serves (worker.obey (.ok (.command .gather))) store [.resultId id]
      [.partition (store.find? id)] () store := by
  have accepted : Serves (accept Message.expectCommand (.ok (.command .gather))) store [] []
      .gather store := .refl _
  refine Serves.bindQuiet accepted ?_
  refine Serves.bindTaking (Serves.receive id rfl) ?_
  exact Serves.bindQuiet (Serves.get store) (Serves.send _ store)

/-- Told to forget a result, the worker does so. -/
theorem serves_delete (id : ResultId) (store : ResultStore) :
    Serves (worker.obey (.ok (.command .deleteResult))) store [.resultId id] [] ()
      (store.erase id) := by
  have accepted : Serves (accept Message.expectCommand (.ok (.command .deleteResult))) store [] []
      .deleteResult store := .refl _
  refine Serves.bindQuiet accepted ?_
  refine Serves.bindTaking (Serves.receive id rfl) ?_
  exact Serves.modify _ store

end Worker

end Rankwise

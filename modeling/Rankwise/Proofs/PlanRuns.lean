import Rankwise.Proofs.Executions
import Rankwise.Proofs.Grounding
import Rankwise.Proofs.ReadingPlans

/-!
# Plans on the ranks

What a rank makes of a written plan is what the plan with the names of its tables comes to there
(`outcome?_plan`). It depends on nothing outside of what the root refers to (`runOnRank_agree`),
while the plan can be written only if all tables that are scanned anywhere have names
(`Arena.encode?_isSome`).
-/

namespace Rankwise

variable {ε η : Type}

/-- The workers run plans on this engine. -/
structure Registry.RunsPlans (registry : Registry) (engine : Engine ε η) (fresh : ε) : Prop where
  knows : registry.body executePlanName = .ok (.executePlan engine fresh)
  deep : 0 < registry.depthLimit

/-- The arguments of the call that sends a plan are in order. -/
theorem planArguments_ordered (payload : Json) : (planArguments payload).IsOrdered := by
  constructor
  · intro argument member
    obtain rfl := List.mem_singleton.mp member
    trivial
  · intro entry member
    exact absurd member List.not_mem_nil

/-- What a rank says of a run: nothing if the run goes on for ever. Where it broke off, this is told
like a failure. -/
def saidOf (store : ResultStore) (result : Except Stop Batch) :
    Option (Except Failure Output × ResultStore) :=
  match result with
  | .ok table => some (.ok (.distributed table), store)
  | .error (.failed failure) => some (.error failure, store)
  | .error .unending => none
  | .error .overflow =>
    some (.error (Worker.panicked executePlanName "attempt to add with overflow"), store)

/-- What the computation that runs plans does with a written plan. -/
theorem executePlan_eq (engine : Engine ε η) (fresh : ε) (context : CallContext)
    (invoke : String → Arguments → Running Output) (payload : Json) :
    Body.executePlan engine fresh context invoke { positional := [.json payload] } = (do
      let plan ← (receivedPlan (.json payload) : Except Failure RootedPlan)
      let store : ResultStore ← get
      let table ← (runOnRank engine fresh plan context.rank context.size store.find? :
        Except Stop Batch)
      return .distributed table) := rfl

/-- A computation that has a value goes on with it. -/
theorem Running.ok_bind {α β : Type} (value : α) (next : α → Running β) :
    ((liftM (.ok value : Except Failure α) : Running α) >>= next) = next value := rfl

/-- What follows once the plan is read. -/
theorem run_stored (result : ResultStore → Except Stop Batch) (store : ResultStore) :
    (do
      let store : ResultStore ← get
      let table ← (result store : Except Stop Batch)
      return .distributed table : Running Output).run store =
      match result store with
      | .ok table => (.ok (.distributed table), store)
      | .error (.failed failure) => (.error (.failed failure), store)
      | .error .unending => (.error .unending, store)
      | .error .overflow => (.error (.panicked "attempt to add with overflow"), store) := by
  show (do
    let table ← (result store : Except Stop Batch)
    return .distributed table : Running Output).run store = _
  cases result store with
  | ok table => rfl
  | error stop =>
    cases stop with
    | failed failure => rfl
    | unending => rfl
    | overflow => rfl

/-- A rank runs a plan that it has received by converting and executing it. -/
theorem run_executePlan (engine : Engine ε η) (fresh : ε) (context : CallContext)
    (invoke : String → Arguments → Running Output) (payload : Json) (plan : RootedPlan)
    (read : receivedPlan (.json payload) = .ok plan) (store : ResultStore) :
    (Body.executePlan engine fresh context invoke { positional := [.json payload] }).run store =
      match runOnRank engine fresh plan context.rank context.size store.find? with
      | .ok table => (.ok (.distributed table), store)
      | .error (.failed failure) => (.error (.failed failure), store)
      | .error .unending => (.error .unending, store)
      | .error .overflow => (.error (.panicked "attempt to add with overflow"), store) := by
  rw [executePlan_eq, read, Running.ok_bind]
  exact run_stored (fun store => runOnRank engine fresh plan context.rank context.size store.find?)
    store

/-- A worker that knows how to run plans runs the plan. -/
theorem run?_executePlan (engine : Engine ε η) (fresh : ε) (worker : Worker)
    (runs : worker.registry.RunsPlans engine fresh) (payload : Json) (plan : RootedPlan)
    (read : receivedPlan (.json payload) = .ok plan) (context : CallContext) (store : ResultStore) :
    worker.run? context executePlanName { positional := [.json payload] } store =
      saidOf store (runOnRank engine fresh plan context.rank context.size store.find?) := by
  obtain ⟨invoke, called⟩ := worker.registry.call_of_knows executePlanName
    (.executePlan engine fresh) runs.knows runs.deep context { positional := [.json payload] }
  rw [Worker.run?, called, run_executePlan engine fresh context _ payload plan read]
  cases runOnRank engine fresh plan context.rank context.size store.find? with
  | ok table => rfl
  | error stop =>
    cases stop with
    | failed failure => rfl
    | unending => rfl
    | overflow => rfl

/-- What a rank makes of a written plan. -/
theorem outcome?_plan (engine : Engine ε η) (fresh : ε) (registry : Registry)
    (runs : registry.RunsPlans engine fresh) (payload : Json) (plan : RootedPlan)
    (read : receivedPlan (.json payload) = .ok plan) (isLive : Handle → Bool)
    (prepared : PreparedCall)
    (prepares : PreparedCall.prepare isLive planComputation (planArguments payload) = .ok prepared)
    (size : Nat) (surroundings : List (String × String)) (stores : Nat → ResultStore) (rank : Nat) :
    Request.outcome? registry size surroundings planComputation (planArguments payload) prepared
        stores rank =
      saidOf (stores rank) (runOnRank engine fresh plan rank size (stores rank).find?) := by
  obtain rfl := Except.ok.inj prepares
  exact run?_executePlan engine fresh { rank, size, registry } runs payload plan read _ (stores rank)

/-- A rank that says it has an output has run the plan to a table. -/
theorem saidOf_ok (store later : ResultStore) (result : Except Stop Batch) (output : Output)
    (same : saidOf store result = some (.ok output, later)) : ∃ table, result = .ok table := by
  cases result with
  | ok table => exact ⟨table, rfl⟩
  | error stop =>
    cases stop with
    | failed failure => cases same
    | unending => cases same
    | overflow => cases same

namespace SpawnerId

variable (id : SpawnerId) {world ready : World} {fleet last : Fleet} {group : Group}
  {stores : Nat → ResultStore} {engine : Engine ε η} {fresh : ε} {payload : Json} {plan : RootedPlan}

/-- The call that sends a plan can be prepared. -/
theorem plan_prepares (isLive : Handle → Bool) (payload : Json) :
    ∃ prepared, PreparedCall.prepare isLive planComputation (planArguments payload) =
      .ok prepared := ⟨_, rfl⟩

/-- If every rank comes to a table, the call with a written plan gives the frame of these tables. -/
theorem acts_planCall (begun : id.Ready world fleet ready last group stores)
    (runs : last.registry.RunsPlans engine fresh) (read : receivedPlan (.json payload) = .ok plan)
    (partition : Nat → Batch)
    (each : ∀ rank < group.size,
      runOnRank engine fresh plan rank group.size (stores rank).find? = .ok (partition rank)) :
    Acts (id.callFrame planComputation (planArguments payload)).run world fleet
      (.ok (id.frameOf group ready partition)) (id.afterCall group ready)
      (last.rest group (storedAfter ready partition stores)) := by
  obtain ⟨prepared, prepares⟩ := plan_prepares ready.isLive payload
  apply acts_callFrame id begun (planArguments_ordered payload) prepares
  intro rank inside
  rw [outcome?_plan engine fresh last.registry runs payload plan read ready.isLive prepared prepares,
    each rank inside]
  rfl

/-- If the call with a written plan gives a frame, every rank has come to a table. -/
theorem runs_of_planCall (inSync : world.InSync id fleet)
    (runs : fleet.registry.RunsPlans engine fresh) (read : receivedPlan (.json payload) = .ok plan)
    (frame : Frame) (after : World) (rest : Fleet)
    (called : Acts (id.callFrame planComputation (planArguments payload)).run world fleet
      (.ok frame) after rest) :
    ∃ ready last group stores, id.Ready world fleet ready last group stores ∧
      ∃ partition : Nat → Batch, ∀ rank < group.size,
        runOnRank engine fresh plan rank group.size (stores rank).find? = .ok (partition rank) := by
  obtain ⟨ready, last, group, stores, begun, prepared, prepares, output, later, answered⟩ :=
    answered_of_callFrame id inSync (planArguments_ordered payload) frame after rest called
  have runsThen : last.registry.RunsPlans engine fresh := begun.tended.registered.symm ▸ runs
  have each (rank : Nat) (inside : rank < group.size) : ∃ table,
      runOnRank engine fresh plan rank group.size (stores rank).find? = .ok table := by
    have said := answered rank inside
    rw [outcome?_plan engine fresh last.registry runsThen payload plan read ready.isLive prepared
      prepares] at said
    exact saidOf_ok _ _ _ _ said
  refine ⟨ready, last, group, stores, begun, fun rank =>
    (runOnRank engine fresh plan rank group.size (stores rank).find?).toOption.getD
      (Batch.empty {}), ?_⟩
  intro rank inside
  obtain ⟨table, found⟩ := each rank inside
  dsimp only
  rw [found]
  rfl

end SpawnerId

namespace Operator

/-- The name of the table that the operator scans is known, if it scans one. -/
def IsNamed (names : LazyNames) : Operator → Prop
  | partitionScan table _ => (table.resultId? names).isSome = true
  | _ => True

/-- An operator can be written exactly if the table that it scans has a name. -/
theorem encode?_isSome (names : LazyNames) (operator : Operator) :
    (operator.encode? names).isSome = true ↔ operator.IsNamed names := by
  cases operator with
  | partitionScan table rows =>
    rw [encode?, IsNamed, LazyTable.encode?]
    cases table.resultId? names with
    | none => exact Iff.rfl
    | some id => exact Iff.rfl
  | _ => exact iff_of_true rfl trivial

end Operator

namespace Node

/-- The name of the table that the node scans is known, if it scans one. -/
def IsNamed (names : LazyNames) (node : Node) : Prop :=
  match node.content with
  | .operator operator => operator.IsNamed names
  | .expression _ => True

/-- A node can be written exactly if the table that it scans has a name. -/
theorem encode?_isSome (names : LazyNames) (node : Node) :
    (node.encode? names).isSome = true ↔ node.IsNamed names := by
  obtain ⟨output, content⟩ := node
  cases content with
  | operator operator =>
    have shape : (encode? names { output, content := .operator operator }).isSome =
        (operator.encode? names).isSome := by
      show Option.isSome (Option.bind (Option.map _ (operator.encode? names)) _) = _
      cases operator.encode? names with
      | none => rfl
      | some written => rfl
    rw [shape]
    exact operator.encode?_isSome names
  | expression expression => exact iff_of_true rfl trivial

end Node

namespace Arena

/-- The names of all tables that the plan scans anywhere are known. -/
def IsNamed (names : LazyNames) (arena : Arena) : Prop := ∀ node ∈ arena.nodes, node.IsNamed names

/-- A plan can be written exactly if the names of all tables that it scans anywhere are known. -/
theorem encode?_isSome (names : LazyNames) (arena : Arena) :
    (arena.encode? names).isSome = true ↔ arena.IsNamed names := by
  have all (nodes : List Node) :
      (nodes.mapM (Node.encode? names)).isSome = true ↔ ∀ node ∈ nodes, node.IsNamed names := by
    induction nodes with
    | nil => exact iff_of_true rfl fun node member => absurd member List.not_mem_nil
    | cons node rest inductionHypothesis =>
      rw [List.mapM_cons, List.forall_mem_cons, ← inductionHypothesis, ← node.encode?_isSome names]
      cases node.encode? names with
      | none => simp
      | some written =>
        cases rest.mapM (Node.encode? names) with
        | none => simp
        | some others => simp
  rw [IsNamed, ← all arena.nodes, encode?]
  cases arena.nodes.mapM (Node.encode? names) with
  | none => rfl
  | some written => rfl

variable {arena other : Arena} {root : NodeId}

/-- The nodes of a plan that was sent are those of the plan, with the names of their tables. -/
theorem nodes_resolved (names : LazyNames) (arena : Arena) (id : NodeId) :
    (arena.resolved names).nodes[id.index]? =
      (arena.nodes[id.index]?).map (Node.resolved names) :=
  List.getElem?_map

/-- A node refers to the same when its table is known by name. -/
theorem references_resolved (names : LazyNames) (node : Node) :
    (node.resolved names).references = node.references := by
  obtain ⟨output, content⟩ := node
  cases content with
  | expression expression => rfl
  | operator operator =>
    cases operator <;> rfl

/-- In a plan that was sent nodes refer to the same. -/
theorem refers_resolved (names : LazyNames) (arena : Arena) :
    (arena.resolved names).Refers = arena.Refers := by
  funext id child
  apply propext
  constructor
  · rintro ⟨node, found, mentions⟩
    rw [nodes_resolved] at found
    obtain ⟨before, foundBefore, rfl⟩ := Option.map_eq_some_iff.mp found
    rw [references_resolved] at mentions
    exact ⟨before, foundBefore, mentions⟩
  · rintro ⟨node, found, mentions⟩
    refine ⟨node.resolved names, ?_, ?_⟩
    · rw [nodes_resolved, found]
      rfl
    · rw [references_resolved]
      exact mentions

/-- Plans that agree below a root agree when they were sent. -/
theorem Agrees.resolved (agrees : arena.Agrees other root) (names : LazyNames) :
    (arena.resolved names).Agrees (other.resolved names) root := by
  intro id reaches
  rw [Arena.Reaches, refers_resolved] at reaches
  rw [nodes_resolved, nodes_resolved, agrees id reaches]

/-- What is grounded in a plan that was sent was so before. -/
theorem Grounded.of_resolved (names : LazyNames)
    (grounded : (arena.resolved names).Grounded root) : arena.Grounded root := by
  induction grounded with
  | intro id node found below inductionHypothesis =>
    rw [nodes_resolved] at found
    obtain ⟨before, foundBefore, rfl⟩ := Option.map_eq_some_iff.mp found
    rw [references_resolved] at inductionHypothesis
    exact .intro id before foundBefore inductionHypothesis

/-- What is grounded in a plan is so when it was sent. -/
theorem Grounded.resolved (grounded : arena.Grounded root) (names : LazyNames) :
    (arena.resolved names).Grounded root := by
  induction grounded with
  | intro id node found below inductionHypothesis =>
    apply Grounded.intro id (node.resolved names)
    · rw [nodes_resolved, found]
      rfl
    · rw [references_resolved]
      exact inductionHypothesis

end Arena

/-- What a rank makes of a plan does not depend on anything outside of what its root refers to. -/
theorem runOnRank_agree (engine : Engine ε η) (fresh : ε) (arena other : Arena) (root : NodeId)
    (grounded : arena.Grounded root) (agrees : arena.Agrees other root) (rank size : Nat)
    (stored : ResultId → Option Batch) :
    runOnRank engine fresh { arena := other, root } rank size stored =
      runOnRank engine fresh { arena, root } rank size stored := by
  have output : other.output root = arena.output root := by
    cases grounded with
    | intro _ node found _ => simp only [Arena.output, Arena.node, agrees.same, found]
  unfold runOnRank
  simp only [output, Arena.convert_agree engine _ grounded agrees]

/-- What follows the conversion on a rank does not begin where the conversion fails. -/
theorem runOnRank_error (engine : Engine ε η) (fresh later : ε) (plan : RootedPlan)
    (rank size : Nat) (stored : ResultId → Option Batch) (stop : Stop)
    (failed : (plan.arena.convert engine (.ofRank rank size (fun _ => none) stored) plan.root).run
      fresh = (.error stop, later)) :
    runOnRank engine fresh plan rank size stored = .error stop := by
  unfold runOnRank
  show ((((plan.arena.convert engine _ plan.root) >>= ExceptT.bindCont _ :
    StateM ε (Except Stop Batch)).run fresh).1) = _
  rw [StateT.run_bind, failed]
  rfl

/-- A rank that comes to a table was given a plan without cycles. -/
theorem grounded_of_runs (engine : Engine ε η) (fresh : ε) (plan : RootedPlan) (rank size : Nat)
    (stored : ResultId → Option Batch) (table : Batch)
    (comes : runOnRank engine fresh plan rank size stored = .ok table) :
    plan.arena.Grounded plan.root := by
  cases converted : (plan.arena.convert engine
      (.ofRank rank size (fun _ => none) stored) plan.root).run fresh with
  | mk result later =>
    cases result with
    | ok handle => exact Arena.grounded_of_converts engine _ handle fresh later converted
    | error stop =>
      rw [runOnRank_error engine fresh later plan rank size stored stop converted] at comes
      cases comes

/-- A plan that was written is received with the names of its tables on the workers. -/
theorem receivedPlan_written (names : LazyNames) (arena : Arena) (root : NodeId) (fits : arena.Fits)
    (rooted : root.Fits) (payload : Json)
    (written : RootedPlan.encode? names { arena, root } = some payload) :
    receivedPlan (.json payload.sorted) = .ok { arena := arena.resolved names, root } := by
  have reads := (RootedPlan.reads names { arena, root } fits rooted payload written).readValue
  rw [receivedPlan, reads]

/-- Writing a plan needs the names of all tables that it scans anywhere. -/
theorem RootedPlan.encode?_isSome (names : LazyNames) (arena : Arena) (root : NodeId) :
    (RootedPlan.encode? names { arena, root }).isSome = true ↔ arena.IsNamed names := by
  rw [← arena.encode?_isSome names, RootedPlan.encode?]
  cases arena.encode? names with
  | none => exact Iff.rfl
  | some written => exact Iff.rfl

end Rankwise

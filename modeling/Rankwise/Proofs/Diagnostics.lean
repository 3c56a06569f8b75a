import Rankwise.Proofs.Composition
import Rankwise.Proofs.Displays
import Rankwise.Proofs.Executions
import Rankwise.Proofs.Matching
import Rankwise.Proofs.PlanLocality

/-!
# Diagnostics

Plans can be shown before they are run, and the time of each step can be noted. What is shown goes
into the log, but a plan that cannot be shown makes the call fail. An action is undisturbed if it
does the same whatever is diagnosed (`Undisturbed`): it asks the same of the outside, gives the same
and leaves the same but for the settings.

All that is put together from undisturbed actions is undisturbed (`Undisturbed.composes`), and so
are the conversion of a plan and everything that is asked of the engine. Showing a plan is
undisturbed if the plan can be shown, and a plan that was built can, if the sources that its
constants and nulls record are there (`IsBuilt.displays`). If the root is not there, running the
plan fails before the plan would be shown, or with the same failure (`run_locally_missing`,
`run_onWorkers_missing`).
-/

namespace Rankwise

variable {ε η α β : Type}

/-- What an engine is asked for. -/
inductive EngineCall (η : Type) where
  | create (name : String) (output : OutputSchema) (arguments : List (EngineArgument η))
  | optimize (plan : η)
  | execute (plan : η) (kind : OutputKind) (schema : Schema)

/-- The action of an engine, with a list of calls to which this one is added. -/
def EngineAction.noting (call : EngineCall η) (action : EngineAction ε α) :
    EngineAction (ε × List (EngineCall η)) α :=
  ExceptT.mk fun (state, calls) =>
    ((action.run.run state).1, (action.run.run state).2, calls ++ [call])

/-- The engine with a list of what it was asked for. -/
def Engine.logging (engine : Engine ε η) : Engine (ε × List (EngineCall η)) η where
  create name output arguments :=
    (engine.create name output arguments).noting (.create name output arguments)
  optimize plan := (engine.optimize plan).noting (.optimize plan)
  execute plan kind schema := (engine.execute plan kind schema).noting (.execute plan kind schema)
  size plan state := engine.size plan state.1
  rows plan state := engine.rows plan state.1

/-- The executor with the switches for diagnostics in these positions. -/
def Executor.diagnosing (executor : Executor ε) (dumpPlans profile : Bool) : Executor ε :=
  { executor with
    settings := (executor.settings.turn .dumpPlans dumpPlans).turn .profile profile }

/-- Whatever is diagnosed, the action asks the same of the outside, and for the same answers it
gives the same and leaves the same, but for the settings. -/
def Undisturbed (action : StateT (Executor ε) (StateT World Dialogue) α) : Prop :=
  ∀ (executor : Executor ε) (dumpPlans profile : Bool),
    action.run (executor.diagnosing dumpPlans profile) =
      (fun ended => (ended.1, ended.2.diagnosing dumpPlans profile)) <$> action.run executor

namespace Undisturbed

/-- All that is put together from undisturbed actions is undisturbed. -/
theorem composes : Composes fun α => Undisturbed (ε := ε) (α := α) where
  pure value _ _ _ := rfl
  bind begun continued executor dumpPlans profile := by
    rw [StateT.run_bind, StateT.run_bind, begun executor dumpPlans profile, bind_map_left, map_bind]
    exact bind_congr fun (value, between) => continued value between dumpPlans profile

/-- What the coordinator does has nothing to do with the executor. -/
theorem lift (acting : StateT World Dialogue α) :
    Undisturbed (StateT.lift acting : StateT (Executor ε) (StateT World Dialogue) α) := by
  intro executor dumpPlans profile
  rw [StateT.run_lift, StateT.run_lift, map_bind]
  rfl

/-- What the coordinator does is undisturbed. -/
theorem coordinate (acting : Coordinating α) :
    Undisturbed (Executing.coordinate acting : Executing ε α).run := lift acting.run

/-- What the engine does is undisturbed. -/
theorem engine (action : StateM ε (Except Stop α)) :
    Undisturbed (Executing.engine action : Executing ε α).run := fun _ _ _ => rfl

/-- To fail with a result is undisturbed. -/
theorem ofExcept (result : Except Failure α) :
    Undisturbed (Executing.ofExcept result : Executing ε α).run := composes.pure _

/-- To count a plan that was run is undisturbed. -/
theorem noteExecuted : Undisturbed (Executing.noteExecuted : Executing ε Unit).run :=
  fun _ _ _ => rfl

/-- To give an answer that does not depend on the executor, and to do nothing else, is undisturbed.
-/
theorem of_answer {action : StateT (Executor ε) (StateT World Dialogue) α} (answer : World → α)
    (answers : ∀ executor world, (action.run executor).run world =
      .done ((answer world, executor), world)) : Undisturbed action := by
  intro executor dumpPlans profile
  apply StateT.ext
  intro world
  rw [StateT.run_map, answers, answers]
  rfl

/-- An executor whose switches do not matter to the choice between two actions. -/
theorem of_cases {action : StateT (Executor ε) (StateT World Dialogue) α}
    (choice : Executor ε → StateT (Executor ε) (StateT World Dialogue) α)
    (chooses : ∀ executor, action.run executor = (choice executor).run executor)
    (alike : ∀ executor dumpPlans profile,
      choice (executor.diagnosing dumpPlans profile) = choice executor)
    (each : ∀ executor, Undisturbed (choice executor)) : Undisturbed action := by
  intro executor dumpPlans profile
  rw [chooses, chooses, alike]
  exact each executor executor dumpPlans profile

end Undisturbed

namespace Arena

variable {arena : Arena} {root : NodeId}

/-- A plan that was built can be shown, if the recorded sources are there. -/
theorem IsBuilt.displays (built : arena.IsBuilt) (founded : arena.IsFounded)
    (inside : root.index < arena.size) (names : LazyNames) :
    ∃ text, arena.display names root = .ok text := by
  rcases operator_or_expression inside with ⟨operator, found⟩ | ⟨expression, found⟩
  · exact built.displays_operator names found
  · obtain ⟨source, formula, spells⟩ := built.spells found
    exact spells.displays built (spells.source_resolves built founded) names

end Arena

/-- The conversion of a node that is not there fails. -/
theorem Converting.node_missing {m : Type → Type} [Monad m] [LawfulMonad m] {arena : Arena}
    {root : NodeId} (resolver : Resolver m)
    (create : String → OutputSchema → List (EngineArgument η) → m (Except Stop η))
    (missing : arena.nodes[root.index]? = none) :
    (node arena resolver create root).run.run [] =
      pure (.error (.failed (Arena.unknownNode root arena.size)), []) := by
  have unknown : arena.node root = .error (Arena.unknownNode root arena.size) := by
    rw [Arena.node, missing]
  rw [node, Arena.walkLimit, run_nodeWithin, List.lookup_nil]
  simp only [construct, unknown, Except.mapError]
  rw [ExceptT.run_bind, ExceptT.run_mk, pure_bind]
  rfl

namespace Executing

variable {arena : Arena} {root : NodeId}

/-! A plan whose root is there. -/

/-- To show a plan is undisturbed if it can be shown. -/
theorem display_undisturbed (shows : ∀ names, ∃ text, arena.display names root = .ok text) :
    Undisturbed (display arena root : Executing ε Unit).run := by
  refine .of_answer (fun _ => .ok ()) fun executor world => ?_
  cases asked : executor.settings.dumpPlans with
  | false => exact display_unasked arena root executor world asked
  | true =>
    obtain ⟨text, shown⟩ := shows world.names
    rw [display_asked arena root executor world asked, shown]
    rfl

/-- The tables are handed out by the coordinator, and nodes are created by the engine. -/
theorem convert_undisturbed (engine : Engine ε η) (arena : Arena) (root : NodeId) :
    Undisturbed (convert engine arena localResolver root).run :=
  Undisturbed.composes.bind
    (Undisturbed.composes.node (fun _ => Undisturbed.composes.pure _)
      (fun table => Undisturbed.lift table.localTable.run) (fun _ _ _ => Undisturbed.engine _) arena root
      [])
    fun _ => Undisturbed.composes.pure _

/-- To run a plan in this process is undisturbed if it can be shown. -/
theorem locally_undisturbed_shown (engine : Engine ε η)
    (shows : ∀ names, ∃ text, arena.display names root = .ok text) :
    Undisturbed (executeLocally engine arena root).run := by
  have composes := Undisturbed.composes (ε := ε)
  refine composes.bindExcept (convert_undisturbed engine arena root) fun plan => ?_
  refine composes.bindExcept (display_undisturbed shows) fun _ => ?_
  refine composes.bindExcept (.engine _) fun plan => ?_
  refine composes.bindExcept (.ofExcept _) fun output => ?_
  refine composes.bindExcept (.engine _) fun table => ?_
  exact composes.bindExcept .noteExecuted fun _ => composes.pure _

/-- To call the computation that runs a plan is undisturbed. -/
theorem callPlan_undisturbed (spawner : SpawnerId) (payload : Json) :
    Undisturbed (callPlan spawner payload : Executing ε Frame).run := by
  have composes := Undisturbed.composes (ε := ε)
  refine composes.bindExcept (.coordinate _) fun (_, answer) => ?_
  refine composes.bindExcept (.ofExcept _) fun answer => ?_
  refine composes.bindExcept (.coordinate _) fun frame => ?_
  exact composes.bindExcept .noteExecuted fun _ => composes.pure _

/-- To send a plan to the workers is undisturbed. -/
theorem sendPlan_undisturbed (arena : Arena) (root : NodeId) (spawner : SpawnerId) :
    Undisturbed (sendPlan arena root spawner : Executing ε Frame).run := by
  refine Undisturbed.composes.bindExcept (.coordinate (get : Acting World)) fun world => ?_
  split
  · exact callPlan_undisturbed spawner _
  · exact .ofExcept _

/-- The steps of a run on the workers are undisturbed if the plan can be shown. -/
theorem steps_undisturbed (shows : ∀ names, ∃ text, arena.display names root = .ok text)
    (spawner : SpawnerId) :
    Undisturbed (do
        display arena root
        let _ ← coordinate (settleScans arena root spawner)
        sendPlan arena root spawner : Executing ε Frame).run := by
  refine Undisturbed.composes.bindExcept (display_undisturbed shows) fun _ => ?_
  refine Undisturbed.composes.bindExcept (.coordinate _) fun _ => ?_
  exact sendPlan_undisturbed arena root spawner

/-! A plan whose root is not there. -/

/-- The conversion fails before the plan is shown. -/
theorem run_locally_missing (engine : Engine ε η) (missing : arena.nodes[root.index]? = none)
    (executor : Executor ε) (world : World) :
    ((executeLocally engine arena root).run.run executor).run world =
      .done ((.error (.failed (Arena.unknownNode root arena.size)), executor), world) := by
  have converts : ((convert engine arena localResolver root).run.run executor).run world =
      .done ((.error (.failed (Arena.unknownNode root arena.size)), executor), world) := by
    rw [convert, ExceptT.run_mk]
    dsimp only
    rw [Converting.node_missing _ _ missing, pure_bind]
    rfl
  rw [executeLocally, Runs.run_bind, converts]
  rfl

/-- The plan fails to be shown, and if it is not shown, the walk that looks for scans fails alike.
-/
theorem run_steps_missing (missing : arena.nodes[root.index]? = none) (spawner : SpawnerId)
    (executor : Executor ε) (world : World) :
    ((do
        display arena root
        let _ ← coordinate (settleScans arena root spawner)
        sendPlan arena root spawner : Executing ε Frame).run.run executor).run world =
      .done ((.error (.failed (Arena.unknownNode root arena.size)), executor), world) := by
  rw [Runs.run_bind]
  cases asked : executor.settings.dumpPlans with
  | true =>
    rw [display_asked arena root executor world asked, Arena.display_missing missing]
    rfl
  | false =>
    have walks : arena.scans root = { outcome := .error (Arena.unknownNode root arena.size) } := by
      rw [Arena.scans, Arena.scansFrom, dif_neg List.not_mem_nil]
      split
      case h_1 => rfl
      case h_2 found =>
        rw [missing] at found
        cases found
    rw [display_unasked arena root executor world asked]
    simp only [settleScans, walks]
    rfl

/-! Any root. -/

/-- To run a plan in this process is undisturbed if its recorded sources are there. -/
theorem locally_undisturbed (engine : Engine ε η) (built : arena.IsBuilt)
    (founded : arena.IsFounded) (root : NodeId) :
    Undisturbed (executeLocally engine arena root).run := by
  cases there : arena.nodes[root.index]? with
  | none =>
    exact .of_answer _ fun executor world => run_locally_missing engine there executor world
  | some node =>
    have inside : root.index < arena.size := (List.getElem?_eq_some_iff.mp there).1
    exact locally_undisturbed_shown engine (built.displays founded inside)

/-- To run a plan on the workers is undisturbed if its recorded sources are there. -/
theorem onWorkers_undisturbed (built : arena.IsBuilt) (founded : arena.IsFounded)
    (root : NodeId) : Undisturbed (executeOnWorkers arena root : Executing ε Frame).run := by
  refine .of_cases _ (onWorkers_cases arena root) (fun _ _ _ => rfl) fun executor => ?_
  split
  case h_1 spawner _ =>
    cases there : arena.nodes[root.index]? with
    | none => exact .of_answer _ fun executor world => run_steps_missing there spawner executor world
    | some node =>
      have inside : root.index < arena.size := (List.getElem?_eq_some_iff.mp there).1
      exact steps_undisturbed (built.displays founded inside) spawner
  case h_2 => exact .ofExcept _

/-- A plan is run where the settings say. -/
theorem execute_cases (engine : Engine ε η) (arena : Arena) (root : NodeId) (executor : Executor ε) :
    (execute engine arena root).run.run executor =
      (if executor.settings.runParallel then do
        return .distributed (← executeOnWorkers arena root)
      else do return .local (← executeLocally engine arena root) :
        Executing ε PlanResult).run.run executor := rfl

/-- To run a plan is undisturbed if its recorded sources are there. -/
theorem execute_undisturbed (engine : Engine ε η) (built : arena.IsBuilt)
    (founded : arena.IsFounded) (root : NodeId) :
    Undisturbed (execute engine arena root).run := by
  have composes := Undisturbed.composes (ε := ε)
  refine .of_cases _ (execute_cases engine arena root) (fun _ _ _ => rfl) fun executor => ?_
  split
  · exact composes.bindExcept (onWorkers_undisturbed built founded root) fun _ => composes.pure _
  · exact composes.bindExcept (locally_undisturbed engine built founded root) fun _ =>
      composes.pure _

/-- Diagnostics never change an execution. For every plan that was built and in which the recorded
sources are there, every root and every engine, running the plan, in this process, on the workers or
where the settings say, does the same in all four positions of the switches: it asks the same of the
workers, whatever they answer, and for the same answers it gives the same table, frame or failure
and leaves the same engine, the same coordinator and the same number of plans that were run. This
holds as well of an engine that has a list of all that it is asked for, so it is asked for the same.
-/
theorem diagnostics_unseen (engine : Engine ε η) (built : arena.IsBuilt)
    (founded : arena.IsFounded) (root : NodeId) :
    (Undisturbed (execute engine arena root).run ∧
      Undisturbed (executeLocally engine arena root).run ∧
      Undisturbed (executeOnWorkers arena root : Executing ε Frame).run) ∧
    Undisturbed (execute engine.logging arena root).run ∧
      Undisturbed (executeLocally engine.logging arena root).run :=
  ⟨⟨execute_undisturbed engine built founded root, locally_undisturbed engine built founded root,
    onWorkers_undisturbed built founded root⟩, execute_undisturbed engine.logging built founded root,
    locally_undisturbed engine.logging built founded root⟩

/-- A scan of a table, and a constant over it. -/
def constantOver : Arena :=
  PlanCall.grown [.tableScan (.empty {}), .constant (.ofField ⟨"n", .int64, true⟩) ⟨0⟩ (.int64 1)]

/-- The source of the constant is there. -/
theorem constantOver_founded : constantOver.IsFounded := by
  rintro ⟨index⟩ node found source recorded
  match index, found with
  | 0, found =>
    obtain rfl := Option.some.inj found
    cases recorded
  | 1, found =>
    obtain rfl := Option.some.inj found
    obtain rfl := Option.some.inj recorded
    exact ⟨_, rfl, by decide⟩

/-- The constant is shown above its source, and nothing but the log can tell. -/
theorem constantOver_unseen :
    constantOver.display (fun _ => none) ⟨1⟩ =
      .ok "ConstantExpression (expr = 1)\n  LogicalGetFrameReadSeq (num_rows = 0)\n" ∧
    Undisturbed (executeLocally Bystander.engine.logging constantOver ⟨1⟩).run := by
  have unseen := diagnostics_unseen Bystander.engine (PlanCall.grown_built _) constantOver_founded ⟨1⟩
  exact ⟨by decide, unseen.2.2⟩

/-- A constant over a relation that the plan does not have cannot be shown, so it can be run only if
it is not shown. -/
theorem unfounded_disturbed :
    ¬ Undisturbed
      (executeLocally Bystander.engine (PlanCall.grown [PlanCall.unfounded]) ⟨0⟩).run := by
  intro undisturbed
  have same := congrFun (undisturbed { state := () } true false) Bystander.world
  cases same

end Executing

end Rankwise

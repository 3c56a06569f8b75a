import Rankwise.Proofs.PlanRuns
import Rankwise.Proofs.RowConversions

/-!
# Running lines of operators

A line that is run gives the table of the rows that it makes of those of the table which its scan is
handed: on a rank (`runOnRank_rows`) and in the process of the coordinator (`Executing.runs_line`).
The tables that the ranks give are joined (`Group.joinPartitions_ofRows`). What a chain makes of the
rows of several tables together it makes of each of them on its own, so then that is the table of
all rows (`Group.joinPartitions_rows`).
-/

namespace Rankwise

variable {ε η α β : Type} {meaning : RowMeaning ε η} {engine : Engine ε η} {arena : Arena}
  {operator : Operator} {table : Batch} {root scan : NodeId} {handed : Batch → Prop}
  {practice : Practice} {change : List Row → List Row} {each : Row → Option Row}

/-- The last node of a line has an output. -/
theorem Arena.IsLine.output (line : arena.IsLine scan root) :
    ∃ output, arena.output root = .ok output := by
  obtain ⟨operator, found⟩ := line.found
  obtain ⟨node, there, -⟩ := (Arena.operator_iff operator).mp found
  exact ⟨node.output, (Arena.output_iff _).mpr ⟨node, there, rfl⟩⟩

/-- What is composed goes on where its first part went well. -/
theorem run_bind_ok {first : ExceptT Stop (StateM ε) α} {next : α → ExceptT Stop (StateM ε) β}
    {state after : ε} {value : α} (ran : first.run.run state = (.ok value, after)) :
    (first >>= next).run.run state = (next value).run.run after := by
  rw [ExceptT.run_bind, StateT.run_bind, ran]
  rfl

/-- A rank gives the table of the rows that a line makes of those that the scan is handed there. -/
theorem runOnRank_rows (builds : meaning.Builds practice engine arena handed)
    (finishes : meaning.Finishes engine arena root) (given : handed table)
    (found : arena.operator scan = .ok operator) (forward : arena.IsForward)
    (makes : arena.Makes practice scan root change) {rank size : Nat} {stored : ResultId → Option Batch}
    (hands : ∀ action : StateM ε (Except Stop Batch),
      operator.asks? (.ofRank rank size (fun _ => none) stored) = some action →
        ∀ state, action.run state = (.ok table, state))
    {fresh : ε} (held : meaning.holds fresh []) :
    runOnRank engine fresh { arena, root } rank size stored =
      .ok (.ofRows meaning.shape (change table.rowList)) := by
  obtain ⟨handle, converted, comes, stands⟩ :=
    (Site.onRank_hosts engine hands).converts builds given found forward makes trivial held
  obtain ⟨better, optimized, improves, standsStill⟩ := finishes.optimize _ _ _ stands
  obtain ⟨output, shape⟩ := makes.isLine.output
  obtain ⟨last, executes⟩ := finishes.execute _ _ output _ shape standsStill
  have converts : (ExceptT.mk (arena.convert engine (.ofRank rank size (fun _ => none) stored) root) :
      ExceptT Stop (StateM ε) η).run.run fresh = (.ok handle, converted) := comes
  have optimizes : (ExceptT.mk (engine.optimize handle).stopping :
      ExceptT Stop (StateM ε) η).run.run converted = (.ok better, optimized) :=
    EngineAction.stopping_run improves
  have shaped : (ExceptT.mk (pure ((arena.output root).mapError Stop.failed)) :
      ExceptT Stop (StateM ε) OutputSchema).run.run optimized = (.ok output, optimized) := by
    rw [shape]
    rfl
  have whole : (do
      let handle ← ExceptT.mk (arena.convert engine (.ofRank rank size (fun _ => none) stored) root)
      let handle ← ExceptT.mk (engine.optimize handle).stopping
      let output ← ExceptT.mk (pure ((arena.output root).mapError Stop.failed))
      ExceptT.mk (engine.execute handle output.kind output.schema).stopping :
      ExceptT Stop (StateM ε) Batch).run.run fresh =
        (.ok (.ofRows meaning.shape (change table.rowList)), last) := by
    refine (run_bind_ok converts).trans ((run_bind_ok optimizes).trans ?_)
    exact (run_bind_ok shaped).trans (EngineAction.stopping_run executes)
  exact congrArg Prod.fst whole

/-- Two parts of an execution run one after the other. -/
theorem Runs.bind {first : Executing ε α} {next : α → Executing ε β}
    {executor halfway after : Executor ε} {world between later : World} {fleet middle last : Fleet}
    {value : α} {result : β}
    (begun : Runs first executor world fleet (.ok value) halfway between middle)
    (continued : Runs (next value) halfway between middle (.ok result) after later last) :
    Runs (first >>= next) executor world fleet (.ok result) after later last :=
  (Runs.bind_iff first next result).mpr ⟨value, halfway, between, middle, begun, continued⟩

namespace Executing

variable {executor : Executor ε} {world later : World} {fleet last : Fleet}

/-- The coordinator gives the table of the rows that a line makes of those of the whole table. -/
theorem runs_line (builds : meaning.Builds practice engine arena handed)
    (finishes : meaning.Finishes engine arena root) (given : handed table)
    (found : arena.operator scan = .ok operator) (forward : arena.IsForward)
    (makes : arena.Makes practice scan root change)
    (displays : ∀ names, ∃ text, arena.display names root = .ok text)
    (hands : ∀ action : StateT (Executor ε) (StateT World Dialogue) (Except Stop Batch),
      operator.asks? localResolver = some action → ∀ executor,
        Acts (action.run executor) world fleet (.ok table, executor) later last)
    (held : meaning.holds executor.state []) :
    ∃ after between middle, Runs (executeLocally engine arena root) executor world fleet
      (.ok (.ofRows meaning.shape (change table.rowList))) after between middle := by
  have begun : (Site.atCoordinator engine world fleet).begun (executor, world, fleet) := rfl
  obtain ⟨handle, converted, comes, stands⟩ :=
    (Site.atCoordinator_hosts engine hands).converts builds given found forward makes begun held
  obtain ⟨halfway, between, middle⟩ := converted
  obtain ⟨better, optimized, improves, standsStill⟩ := finishes.optimize _ _ _ stands
  obtain ⟨output, shape⟩ := makes.isLine.output
  obtain ⟨last, executes⟩ := finishes.execute _ _ output _ shape standsStill
  have converts : Runs (convert engine arena localResolver root) executor world fleet (.ok handle)
      halfway between middle := comes
  have shown : Runs (display arena root) halfway between middle (.ok ()) halfway between middle :=
    (display_iff arena root).mpr ⟨fun _ => displays between.names, rfl, rfl, rfl⟩
  have improved := Runs.engine (EngineAction.stopping_run improves) between middle
  have shaped (executor : Executor ε) :
      Runs (ofExcept (arena.output root)) executor between middle (.ok output) executor between
        middle :=
    (Runs.ofExcept_iff _ _).mpr ⟨shape, rfl, rfl, rfl⟩
  exact ⟨_, between, middle, converts.bind (shown.bind (improved.bind ((shaped _).bind
    ((Runs.engine (EngineAction.stopping_run executes) between middle).bind
      (noteExecuted_runs _)))))⟩

/-- The coordinator gives the table of the rows that a chain makes of those of the whole table. -/
theorem runs_locally (works : meaning.WorksByRows engine arena root handed) (given : handed table)
    (found : arena.operator scan = .ok operator) (forward : arena.IsForward)
    (maps : arena.Makes meaning.byRows scan root (List.filterMap each))
    (displays : ∀ names, ∃ text, arena.display names root = .ok text)
    (hands : ∀ action : StateT (Executor ε) (StateT World Dialogue) (Except Stop Batch),
      operator.asks? localResolver = some action → ∀ executor,
        Acts (action.run executor) world fleet (.ok table, executor) later last)
    (held : meaning.holds executor.state []) :
    ∃ after between middle, Runs (executeLocally engine arena root) executor world fleet
      (.ok (.ofRows meaning.shape (table.rowList.filterMap each))) after between middle :=
  runs_line works.builds works.finishes given found forward maps displays hands held

end Executing

/-- Tables that were made of rows are put one below the other. -/
theorem Batch.concat_ofRows (schema : Schema) (parts : List (List Row)) :
    concat schema (parts.map (ofRows schema)) = .ok (ofRows schema parts.flatten) := by
  have further (above : List Row) : (parts.map (ofRows schema)).foldlM append (ofRows schema above) =
      .ok (ofRows schema (above ++ parts.flatten)) := by
    induction parts generalizing above with
    | nil => simp [pure, Except.pure]
    | cons part rest inductionHypothesis =>
      rw [List.map_cons, List.foldlM_cons, append_ofRows schema schema rfl, List.flatten_cons,
        ← List.append_assoc]
      exact inductionHypothesis (above ++ part)
  rw [concat, empty_eq, further, List.nil_append]

/-- The tables that ranks give are joined to the table of all of their rows. -/
theorem Group.joinPartitions_ofRows (shape : Schema) (size : Nat) (manned : 0 < size)
    (rows : Nat → List Row) :
    joinPartitions ((List.range size).map fun rank => .ofRows shape (rows rank)) =
      .ok (.ofRows shape ((List.range size).flatMap rows)) := by
  have joined := Batch.concat_ofRows shape ((List.range size).map rows)
  rw [List.map_map, ← List.flatMap_def] at joined
  obtain ⟨others, rfl⟩ := Nat.exists_eq_succ_of_ne_zero (Nat.ne_of_gt manned)
  rw [Nat.succ_eq_add_one, List.range_succ_eq_map] at joined ⊢
  exact joined

/-- What is made of the rows of each portion, joined, is what is made of all rows. -/
theorem Group.joinPartitions_rows (shape : Schema) (each : Row → Option Row) (size : Nat)
    (manned : 0 < size) (whole : Batch) (portion : Nat → Batch)
    (all : ((List.range size).map portion).flatMap Batch.rowList = whole.rowList) :
    joinPartitions ((List.range size).map fun rank =>
        .ofRows shape ((portion rank).rowList.filterMap each)) =
      .ok (.ofRows shape (whole.rowList.filterMap each)) := by
  rw [joinPartitions_ofRows shape size manned fun rank => (portion rank).rowList.filterMap each, ← all,
    List.flatMap_map, List.filterMap_flatMap]

end Rankwise

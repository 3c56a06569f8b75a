import Rankwise.Proofs.RowEngines

/-!
# What engines make of lines

A `Practice` says what operators make of the rows of the relation below them and which expressions
there may be. An engine builds a plan by a practice (`RowMeaning.Builds`) if it does so without
failing and handles stand for what they should. Then a line gives what its operators make of the
rows of the scan, one after the other (`Arena.Makes`). An engine that works row by row follows one
practice of this kind (`WorksByRows.builds`), by which a chain maps every row to a row or to nothing
(`IsChain.maps`).

None of this is a matter of the names under which tables lie on the workers (`Makes.resolved`,
`Builds.resolved`).
-/

namespace Rankwise

variable {ε η : Type}

/-- What operators make of the rows of the relation below them, where there is a rule for it, and
which expressions there may be. -/
structure Practice where
  change? : Operator → Option (List Row → List Row)
  admits : Expression → Bool

namespace RowMeaning

variable (meaning : RowMeaning ε η)

/-- The engine builds the nodes of a plan by the practice and without failing, if the tables that
are handed to the scans are of this kind. -/
structure Builds (practice : Practice) (engine : Engine ε η) (arena : Arena)
    (handed : Batch → Prop) : Prop where
  /-- The order in which handles are listed does not matter. -/
  reorder : ∀ state held other, meaning.holds state held → held.Perm other →
    meaning.holds state other
  /-- A scan gives the rows of the table that is handed to it. -/
  scan : ∀ id node operator table others state, arena.nodes[id.index]? = some node →
    node.content = .operator operator → operator.scansTable = true → handed table →
      meaning.holds state others →
        meaning.Creates engine node (operator.scanArguments table) state
          (.relation id table.rowList) others
  /-- An expression is built from its parts. -/
  expression : ∀ id node expression arguments taken others state,
    arena.nodes[id.index]? = some node → node.content = .expression expression →
      practice.admits expression = true → Presents others node.operands arguments taken →
        meaning.holds state (taken ++ others) →
          meaning.Creates engine node arguments state (.expression id) others
  /-- An operator makes of the rows of the relation below what the practice says. -/
  change : ∀ id node operator source change rows arguments taken others state,
    arena.nodes[id.index]? = some node → node.content = .operator operator →
      operator.inputs = [source] → practice.change? operator = some change →
        Presents others node.operands arguments taken →
          (∃ handle, (handle, .relation source rows) ∈ taken) →
            meaning.holds state (taken ++ others) →
              meaning.Creates engine node arguments state (.relation id (change rows)) others

/-- The engine runs what was built for a node. -/
structure Finishes (engine : Engine ε η) (arena : Arena) (root : NodeId) : Prop where
  /-- What is optimized gives the same rows. -/
  optimize : ∀ handle rows state, meaning.holds state [(handle, .relation root rows)] →
    ∃ better after, (engine.optimize handle).run.run state = (.ok better, after) ∧
      meaning.holds after [(better, .relation root rows)]
  /-- What is run gives the table of its rows. -/
  execute : ∀ handle rows output state, arena.output root = .ok output →
    meaning.holds state [(handle, .relation root rows)] →
      ∃ after, (engine.execute handle output.kind output.schema).run.run state =
        (.ok (.ofRows meaning.shape rows), after)

/-- Filters and projections do their step with each row, and expressions need nothing but the row at
hand. -/
def byRows : Practice where
  change? operator := (meaning.step? operator).map fun step => List.filterMap step.2
  admits := Expression.needsRowOnly

variable {meaning} {engine : Engine ε η} {arena : Arena} {root : NodeId} {handed : Batch → Prop}

/-- An engine that works row by row builds what the plan means. -/
theorem WorksByRows.builds (works : meaning.WorksByRows engine arena root handed) :
    meaning.Builds meaning.byRows engine arena handed where
  reorder := works.reorder
  scan := works.scan
  expression := works.expression
  change id node operator source change rows arguments taken others state found content single changes
      presents listed held := by
    obtain ⟨⟨below, step⟩, steps, rfl⟩ := Option.map_eq_some_iff.mp changes
    obtain rfl := List.singleton_inj.mp (single.symm.trans (inputs_of_step steps))
    exact works.step id node operator source step rows arguments taken others state found content steps
      presents listed held

/-- An engine that works row by row gives what it has built. -/
theorem WorksByRows.finishes (works : meaning.WorksByRows engine arena root handed) :
    meaning.Finishes engine arena root where
  optimize := works.optimize
  execute := works.execute

end RowMeaning

namespace Arena

/-- The node is one of a line, and this is what the operators up to it make of the rows of the scan.
-/
inductive Makes (arena : Arena) (practice : Practice) (scan : NodeId) :
    NodeId → (List Row → List Row) → Prop
  | scan (operator : Operator) (found : arena.operator scan = .ok operator)
      (scans : operator.scansTable = true) : arena.Makes practice scan scan fun rows => rows
  | step (id source : NodeId) (operator : Operator) (change before : List Row → List Row)
      (found : arena.operator id = .ok operator) (single : operator.inputs = [source])
      (changes : practice.change? operator = some change)
      (own : ∀ part ∈ operator.expressions, arena.IsOver practice.admits source part)
      (below : arena.Makes practice scan source before) :
      arena.Makes practice scan id fun rows => change (before rows)

variable {arena : Arena} {practice : Practice} {scan root : NodeId} {change : List Row → List Row}

/-- A plan that makes something of a scan is a line above it. -/
theorem Makes.isLine (makes : arena.Makes practice scan root change) : arena.IsLine scan root := by
  induction makes with
  | scan operator found scans => exact .scan operator found scans
  | step id source operator _ _ found single _ own _ inductionHypothesis =>
    exact .step id source operator found single
      (fun part member => (own part member).weaken fun _ _ => rfl) inductionHypothesis

/-- A chain makes of every row of the table a row or nothing. -/
theorem IsChain.maps (chain : arena.IsChain scan root) (meaning : RowMeaning ε η) :
    ∃ each : Row → Option Row, arena.Makes meaning.byRows scan root (List.filterMap each) := by
  have further {id source : NodeId} {operator : Operator} {each step : Row → Option Row}
      (found : arena.operator id = .ok operator) (steps : meaning.step? operator = some (source, step))
      (own : ∀ part ∈ operator.expressions, arena.OnRows source part)
      (below : arena.Makes meaning.byRows scan source (List.filterMap each)) :
      ∃ each : Row → Option Row, arena.Makes meaning.byRows scan id (List.filterMap each) := by
    have changes : meaning.byRows.change? operator = some (List.filterMap step) :=
      congrArg (Option.map fun step : NodeId × (Row → Option Row) => List.filterMap step.2) steps
    have made := Makes.step id source operator _ _ found (RowMeaning.inputs_of_step steps) changes
      (fun part member => (own part member).isOver) below
    refine ⟨fun row => (each row).bind step, ?_⟩
    simpa only [List.filterMap_filterMap] using made
  induction chain with
  | scan operator found scans =>
    have kept : (fun rows => rows : List Row → List Row) = List.filterMap some :=
      funext fun rows => List.filterMap_some.symm
    exact ⟨some, kept ▸ .scan operator found scans⟩
  | filter id source predicate found own _ inductionHypothesis =>
    obtain ⟨each, below⟩ := inductionHypothesis
    exact further found rfl (List.forall_mem_singleton.mpr own) below
  | projection id source expressions found own _ inductionHypothesis =>
    obtain ⟨each, below⟩ := inductionHypothesis
    exact further found rfl own below

end Arena

/-! The same plan with the names of its tables. -/

/-- An operator keeps its name when its table is known by name. -/
theorem Operator.name_resolved (names : LazyNames) (operator : Operator) :
    (operator.resolved names).name = operator.name := by
  cases operator <;> rfl

/-- A node keeps its name when its table is known by name. -/
theorem Node.name_resolved (names : LazyNames) (node : Node) :
    (node.resolved names).name = node.name := by
  obtain ⟨output, content⟩ := node
  cases content with
  | expression expression => rfl
  | operator operator => exact operator.name_resolved names

/-- A node keeps its output when its table is known by name. -/
theorem Node.output_resolved (names : LazyNames) (node : Node) :
    (node.resolved names).output = node.output := by
  obtain ⟨output, content⟩ := node
  cases content <;> rfl

/-- Only scans of tables on the workers are changed. -/
theorem Node.resolved_cases (names : LazyNames) (node : Node) :
    node.resolved names = node ∨
      ∃ table rows, node.content = .operator (.partitionScan table rows) ∧
        (node.resolved names).content = .operator (.partitionScan (table.resolved names) rows) := by
  obtain ⟨output, content⟩ := node
  cases content with
  | expression expression => exact .inl rfl
  | operator operator =>
    cases operator with
    | partitionScan table rows => exact .inr ⟨table, rows, rfl, rfl⟩
    | _ => exact .inl rfl

namespace Arena

variable {arena : Arena} {names : LazyNames} {practice : Practice} {scan root source id : NodeId}
  {change : List Row → List Row}

/-- A node of a plan that was sent comes from a node of the plan. -/
theorem found_resolved {node : Node}
    (found : (arena.resolved names).nodes[id.index]? = some node) :
    ∃ before, arena.nodes[id.index]? = some before ∧ before.resolved names = node := by
  rw [nodes_resolved] at found
  exact Option.map_eq_some_iff.mp found

/-- Outputs are the same in a plan that was sent. -/
theorem output_resolved (names : LazyNames) (arena : Arena) (id : NodeId) (output : OutputSchema) :
    (arena.resolved names).output id = .ok output ↔ arena.output id = .ok output := by
  rw [output_iff, output_iff, nodes_resolved]
  constructor
  · rintro ⟨node, found, same⟩
    obtain ⟨before, there, rfl⟩ := Option.map_eq_some_iff.mp found
    exact ⟨before, there, (before.output_resolved names).symm.trans same⟩
  · rintro ⟨node, found, same⟩
    exact ⟨_, by rw [found]; rfl, (node.output_resolved names).trans same⟩

/-- Operators are the same in a plan that was sent, with the names of their tables. -/
theorem operator_resolved {operator : Operator} (found : arena.operator id = .ok operator) :
    (arena.resolved names).operator id = .ok (operator.resolved names) := by
  obtain ⟨node, there, content⟩ := (operator_iff operator).mp found
  refine (operator_iff _).mpr ⟨node.resolved names, ?_, ?_⟩
  · rw [nodes_resolved, there]
    rfl
  · rw [Node.resolved, content]

/-- Expressions are the same in a plan that was sent. -/
theorem expression_resolved {expression : Expression} (found : arena.expression id = .ok expression) :
    (arena.resolved names).expression id = .ok expression := by
  obtain ⟨node, there, content⟩ := (expression_iff expression).mp found
  have same : node.resolved names = node := by rw [Node.resolved, content]
  refine (expression_iff _).mpr ⟨node, ?_, content⟩
  rw [nodes_resolved, there, Option.map_some, same]

/-- An expression is over the same source in a plan that was sent. -/
theorem IsOver.resolved {admits : Expression → Bool} (isOver : arena.IsOver admits source id)
    (names : LazyNames) : (arena.resolved names).IsOver admits source id := by
  induction isOver with
  | intro id expression found admitted sourced _ inductionHypothesis =>
    exact .intro id expression (expression_resolved found) admitted sourced inductionHypothesis

/-- A plan makes the same of its scan when it was sent. -/
theorem Makes.resolved (makes : arena.Makes practice scan root change) (names : LazyNames) :
    (arena.resolved names).Makes practice scan root change := by
  induction makes with
  | scan operator found scans =>
    refine .scan _ (operator_resolved found) ?_
    cases operator with
    | tableScan | partitionScan => rfl
    | _ => cases scans
  | step id source operator change before found single changes own _ inductionHypothesis =>
    have same : operator.resolved names = operator := by
      cases operator with
      | partitionScan => cases single
      | _ => rfl
    exact .step id source operator change before (same ▸ operator_resolved found) single changes
      (fun part member => (own part member).resolved names) inductionHypothesis

/-- References lead to earlier nodes in a plan that was sent if they did before. -/
theorem IsForward.resolved (forward : arena.IsForward) (names : LazyNames) :
    (arena.resolved names).IsForward := by
  intro id child refers
  rw [refers_resolved] at refers
  exact forward id child refers

end Arena

namespace RowMeaning

variable {meaning : RowMeaning ε η} {practice : Practice} {engine : Engine ε η} {arena : Arena}
  {root : NodeId} {handed : Batch → Prop}

/-- An engine creates the same of a node when its table is known by name. -/
theorem creates_resolved (names : LazyNames) (node : Node) (arguments : List (EngineArgument η))
    (state : ε) (item : Item) (others : List (η × Item)) :
    meaning.Creates engine (node.resolved names) arguments state item others ↔
      meaning.Creates engine node arguments state item others := by
  rw [Creates, Creates, node.name_resolved, node.output_resolved]

/-- To the engine it makes no difference under which names tables lie on the workers. -/
theorem Builds.resolved (builds : meaning.Builds practice engine arena handed) (names : LazyNames) :
    meaning.Builds practice engine (arena.resolved names) handed where
  reorder := builds.reorder
  scan id node operator table others state found content scans given held := by
    obtain ⟨before, there, rfl⟩ := Arena.found_resolved found
    rw [creates_resolved]
    rcases before.resolved_cases names with same | ⟨scanned, rows, contentBefore, contentThen⟩
    · exact builds.scan id before operator table others state there (same ▸ content) scans given held
    · have same := Node.Content.operator.inj (contentThen.symm.trans content)
      have alike : (operator.scanArguments table : List (EngineArgument η)) =
          (Operator.partitionScan scanned rows).scanArguments table := by rw [← same]; rfl
      rw [alike]
      exact builds.scan id before _ table others state there contentBefore rfl given held
  expression id node expression arguments taken others state found content admitted presents held := by
    obtain ⟨before, there, rfl⟩ := Arena.found_resolved found
    rcases before.resolved_cases names with same | ⟨scanned, rows, -, contentThen⟩
    · rw [same] at content presents ⊢
      exact builds.expression id before expression arguments taken others state there content admitted
        presents held
    · cases contentThen.symm.trans content
  change id node operator source change rows arguments taken others state found content single changes
      presents listed held := by
    obtain ⟨before, there, rfl⟩ := Arena.found_resolved found
    rcases before.resolved_cases names with same | ⟨scanned, count, -, contentThen⟩
    · rw [same] at content presents ⊢
      exact builds.change id before operator source change rows arguments taken others state there
        content single changes presents listed held
    · obtain rfl := Node.Content.operator.inj (contentThen.symm.trans content)
      cases single

/-- An engine gives what it has built of a plan that was sent, too. -/
theorem Finishes.resolved (finishes : meaning.Finishes engine arena root) (names : LazyNames) :
    meaning.Finishes engine (arena.resolved names) root where
  optimize := finishes.optimize
  execute handle rows output state shape held :=
    finishes.execute handle rows output state
      ((Arena.output_resolved names arena root output).mp shape) held

end RowMeaning

end Rankwise

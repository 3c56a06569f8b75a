import Rankwise.Proofs.CountRuns

/-!
# The number of rows

The number of rows of a line of filters, projections, limits and orders by the book is known without
running it, or it is counted. In one process it is counted right (`Custody.counts_locally`). On the
workers every rank counts what the line makes of its own portion, and the counts are added up
(`Custody.counts_onWorkers`), which is right where no limit cuts off rows (`Office.count_exact`).
With a limit every rank keeps that many rows (`Office.limited_counted_twice`).
-/

namespace Rankwise

variable {ε η : Type}

/-- Whether the operator scans a table that the workers are to hold. -/
def Operator.scansWorkers : Operator → Bool
  | partitionScan _ _ => true
  | _ => false

/-- Whether the rows of a plan above this scan are counted on the workers, if they have to be
counted. -/
def Executor.countsOnWorkers (executor : Executor ε) (scanned : Operator) : Bool :=
  executor.settings.runParallel || executor.spawner.isSome && scanned.scansWorkers

section Numbers

variable {textbook : Textbook ε η} {engine : Engine ε η} {fresh : ε} {arena : Arena}
  {operator : Operator} {root scan : NodeId} {handed : Batch → Prop} {id : SpawnerId} {world : World}
  {spawner : Spawner} {fleet : Fleet} {deposits : List Deposit} {size : Nat} {whole : Batch}
  {portion : Nat → Batch} {change : List Row → List Row}

/-- A line scans tables on the workers if the operator at its end does. -/
theorem Arena.IsLine.hasScan (line : arena.IsLine scan root) (built : arena.IsBuilt)
    (found : arena.operator scan = .ok operator)
    (supplies : world.Supplies id deposits size operator whole portion) :
    arena.hasScan root = .ok operator.scansWorkers := by
  cases supplies with
  | held =>
    rw [Arena.hasScan, line.scans_held built found]
    rfl
  | kept =>
    rw [Arena.hasScan, line.scans_lazy built found]
    rfl

/-- No portion has more rows than the whole table. -/
theorem World.Supplies.rows_le (supplies : world.Supplies id deposits size operator whole portion)
    (manned : 0 < size) {rank : Nat} (inside : rank < size) :
    (portion rank).rowList.length ≤ whole.rows := by
  rw [← whole.length_rowList, ← supplies.rows manned]
  refine List.Sublist.length_le ?_
  rw [List.flatMap_map]
  exact List.sublist_flatten_of_mem (List.mem_map_of_mem (List.mem_range.mpr inside))

/-- The number of rows of an operator that scans a table is a machine word. -/
theorem Operator.Fits.rows (fits : operator.Fits) (scans : operator.scansTable = true) :
    operator.declaredRows < 2 ^ 64 := by
  cases operator with
  | tableScan | partitionScan => exact fits
  | _ => cases scans

/-- The number of rows of the whole table is a machine word where the plan declares it. -/
theorem World.Supplies.rows_fit (supplies : world.Supplies id deposits size operator whole portion)
    (found : arena.operator scan = .ok operator) (fits : arena.Fits)
    (declared : operator.declaredRows = whole.rows) : whole.rows < 2 ^ 64 := by
  obtain ⟨node, there, content⟩ := (Arena.operator_iff _).mp found
  have nodeFits := fits node (List.mem_of_getElem? there)
  rw [Node.Fits, content] at nodeFits
  exact declared ▸ nodeFits.rows supplies.scansTable

/-- A line without limits makes as many rows of all the portions together as of the whole table. -/
theorem Arena.Yields.sum_portions (yields : arena.Yields textbook scan root change)
    (unlimited : arena.IsUnlimited root)
    (supplies : world.Supplies id deposits size operator whole portion) (manned : 0 < size) :
    ((List.range size).map fun rank => (change (portion rank).rowList).length).sum =
      (change whole.rowList).length := by
  have parts := yields.length_flatten unlimited ((List.range size).map fun rank =>
    (portion rank).rowList)
  rw [List.map_map] at parts
  rw [← supplies.rows manned, List.flatMap_map, List.flatMap_def, parts]
  rfl

/-- What is known without running the plan is the number of rows that it makes of the whole table.
-/
theorem Executing.knownRows_right (executor : Executor ε)
    (counts : textbook.Counts engine arena root handed)
    (yields : arena.Yields textbook scan root change) (built : arena.IsBuilt)
    (found : arena.operator scan = .ok operator)
    (supplies : world.Supplies id deposits size operator whole portion)
    (declared : operator.declaredRows = whole.rows) (given : handed whole)
    (held : textbook.holds executor.state []) :
    ∃ known state,
      Runs (knownRows engine arena root) executor world fleet (.ok known) { executor with state } world
        fleet ∧
      textbook.holds state [] ∧ ∀ rows ∈ known, (change whole.rowList).length = rows := by
  obtain ⟨known, follows, right⟩ := yields.staticRows built.forward found
  have scans := yields.isLine.hasScan built found supplies
  cases known with
  | some rows =>
    refine ⟨some rows, executor.state, knownRows_static follows, held, ?_⟩
    rintro _ ⟨⟩
    exact right rows rfl whole.rowList (whole.length_rowList.trans declared.symm)
  | none =>
    cases supplies with
    | kept =>
      exact ⟨none, executor.state, knownRows_lazy follows scans, held, fun _ wrong => by cases wrong⟩
    | held =>
      obtain ⟨handle, state, comes, stands⟩ :=
        (Site.inProcess_hosts engine executor world fleet whole).converts
          (counts.builds.of_extends (arena.counting_grows root).1) given found built.forward
          (yields.makes (.refl arena) (arena.counting root)) trivial held
      have converts : Runs (convert engine arena localResolver root) executor world fleet (.ok handle)
          { executor with state } world fleet := comes
      refine ⟨_, state, knownRows_held follows scans converts, counts.forgets _ _ _ stands, ?_⟩
      intro rows knows
      exact (counts.rows handle _ state rows stands knows).symm

/-- In the process of the coordinator the plan that counts gives the number of rows that come of the
whole table. -/
theorem Custody.counts_locally (executor : Executor ε)
    (custody : Custody id world spawner fleet deposits) (musters : id.Musters world size)
    (built : arena.IsBuilt) (yields : arena.Yields textbook scan root change)
    (found : arena.operator scan = .ok operator) (fits : whole.rows < 2 ^ 64)
    (supplies : world.Supplies id deposits size operator whole portion)
    (counts : textbook.Counts engine arena root handed) (given : handed whole)
    (places : executor.countsOnWorkers operator = false) (held : textbook.holds executor.state []) :
    ∃ after later last, Runs (Executing.runCount engine (arena.counting root) arena.total) executor world
      fleet (.ok (change whole.rowList).length) after later last := by
  obtain ⟨grows, builtToo⟩ := arena.counting_grows root
  obtain ⟨above, foundRoot⟩ := yields.isLine.found
  have makes := (Arena.counting_isCount foundRoot).makes counts.columns (yields.makes grows _)
  have foundToo := grows.operator found
  obtain ⟨_, _, hands⟩ := custody.hands_whole ε musters supplies
  obtain ⟨after, later, last, runs⟩ := Executing.runs_line counts.builds counts.finishes given foundToo
    (builtToo built).forward makes (fun names => makes.isLine.displays (builtToo built) names) hands held
  have small : ∀ count ∈ [(change whole.rowList).length], count < 2 ^ 64 := by
    refine List.forall_mem_singleton.mpr (Nat.lt_of_le_of_lt (yields.length_le _) ?_)
    rw [whole.length_rowList]
    exact fits
  rw [counts.shape] at runs
  have counted : Runs (Executing.countIn
      (.ofRows { fields := [countField] } [[.ofCount (change whole.rowList).length]])) after later last
        (.ok (change whole.rowList).length) after later last := by
    simpa only [List.map_cons, List.map_nil, List.sum_singleton] using
      Executing.countIn_runs [(change whole.rowList).length] small
  exact ⟨after, later, last, Executing.runCount_locally
    (makes.isLine.hasScan (builtToo built) foundToo supplies) places runs counted⟩

/-- On the workers it gives the sum of the numbers of rows that come of the portions. -/
theorem Custody.counts_onWorkers (executor : Executor ε)
    (custody : Custody id world spawner fleet deposits) (keeps : fleet.registry.KeepsTables)
    (runsPlans : fleet.registry.RunsPlans engine fresh) (musters : id.Musters world size)
    (commands : executor.spawner = some id) (built : arena.IsBuilt)
    (fits : arena.Fits) (room : arena.total.Fits)
    (only : ∀ place table, arena.ScansAt place table → arena.Reaches root place)
    (yields : arena.Yields textbook scan root change)
    (found : arena.operator scan = .ok operator) (small : whole.rows < 2 ^ 64)
    (supplies : world.Supplies id deposits size operator whole portion)
    (counts : textbook.Counts engine arena root handed) (given : ∀ rank < size, handed (portion rank))
    (places : executor.countsOnWorkers operator = true) (held : textbook.holds fresh []) :
    ∃ after later last, Runs (Executing.runCount engine (arena.counting root) arena.total) executor world
      fleet (.ok ((List.range size).map fun rank => (change (portion rank).rowList).length).sum) after
        later last := by
  obtain ⟨grows, builtToo⟩ := arena.counting_grows root
  obtain ⟨above, foundRoot⟩ := yields.isLine.found
  have makes := (Arena.counting_isCount foundRoot).makes counts.columns (yields.makes grows _)
  have foundToo := grows.operator found
  have onlyToo (place : NodeId) (table : LazyTable) (scans : (arena.counting root).ScansAt place table) :
      (arena.counting root).Reaches arena.total place := by
    have before := Arena.scansAt_counting foundRoot place table scans
    obtain ⟨rows, there⟩ := (Arena.scansAt_iff table).mp before
    obtain rfl := (yields.isLine.along (only place table before)).scan_eq there rfl
    exact makes.isLine.reaches_scan
  obtain ⟨partitioned, deposit, record, between, halfway, middle, runs, placed⟩ :=
    custody.places_onWorkers keeps runsPlans musters executor commands (builtToo built)
      (Arena.fits_counting foundRoot fits room) room makes.isLine onlyToo foundToo supplies counts.builds
      counts.finishes given held makes
  have manned := placed.custody.musters_pos placed.musters
  have joins := Group.joinPartitions_ofRows textbook.shape size manned fun rank =>
    [[.ofCount (change (portion rank).rowList).length]]
  obtain ⟨later, last, fetched⟩ := placed.fetched executor.counted partitioned joins
  let numbers := (List.range size).map fun rank => (change (portion rank).rowList).length
  have same : ((List.range size).flatMap fun rank =>
      [[Scalar.ofCount (change (portion rank).rowList).length]]) =
        numbers.map fun count => [.ofCount count] := by
    rw [List.map_map]
    exact List.map_eq_flatMap.symm
  have fit : ∀ count ∈ numbers, count < 2 ^ 64 := by
    refine List.forall_mem_map.mpr fun rank member => ?_
    have within := supplies.rows_le manned (List.mem_range.mp member)
    exact Nat.lt_of_le_of_lt ((yields.length_le _).trans within) small
  rw [same, counts.shape] at fetched
  exact ⟨_, later, last, Executing.runCount_onWorkers
    (makes.isLine.hasScan (builtToo built) foundToo supplies) places runs fetched
    (Executing.countIn_runs numbers fit)⟩

namespace Office

/-- The number of rows of a line of filters, projections, limits and orders is what is known without
running the line, which is right, or else it is counted: in one process as the number of rows that
come of the whole table, which is right too, and on the workers as the sum of the numbers of rows
that come of the portions. The sum is right if the line has no limits; with limits every rank keeps
the rows that they allow. This holds in whatever order coordinator and workers go on, whatever the
number of workers and the settings, with a table that the plan holds, with one that the coordinator
keeps until the workers need it and with one that lies on the ranks in whatever portions. -/
theorem count_exact {office : Office} (inOrder : office.InOrder id)
    (runsPlans : office.traffic.registry.RunsPlans engine fresh) (executor : Executor ε)
    (commands : executor.spawner = some id ∨
      executor.spawner = none ∧ executor.settings.runParallel = false)
    (musters : id.Musters office.world size) (built : arena.IsBuilt) (fits : arena.Fits)
    (room : arena.total.Fits)
    (only : ∀ place table, arena.ScansAt place table → arena.Reaches root place)
    (yields : arena.Yields textbook scan root change)
    (found : arena.operator scan = .ok operator)
    (supplies : office.world.Supplies id office.deposits size operator whole portion)
    (declared : operator.declaredRows = whole.rows)
    (counts : textbook.Counts engine arena root fun table =>
      table = whole ∨ ∃ rank < size, table = portion rank)
    (held : textbook.holds executor.state []) (heldToo : textbook.holds fresh []) :
    ∃ known count,
      office.Always (Prod.fst <$> (Executing.knownRows engine arena root).run.run executor)
        (.ok known) ∧
      office.Always ((fun ended => ended.1.1) <$> (Executing.count engine root arena).run executor)
        (.ok count) ∧
      (∀ rows ∈ known, rows = (change whole.rowList).length) ∧
      count = (if known = none ∧ executor.countsOnWorkers operator = true then
          ((List.range size).map fun rank => (change (portion rank).rowList).length).sum
        else (change whole.rowList).length) ∧
      (arena.IsUnlimited root → count = (change whole.rowList).length) := by
  obtain ⟨spawner, custody⟩ := inOrder.custody
  -- First the number of rows that the plan tells of itself. What follows depends on whether it
  -- tells one.
  obtain ⟨above, foundRoot⟩ := yields.isLine.found
  obtain ⟨known, state, knows, stands, right⟩ :=
    Executing.knownRows_right executor counts yields built found supplies declared (.inl rfl) held
  have small := supplies.rows_fit found fits declared
  refine ⟨known, _, Always.map_acts inOrder.sound Prod.fst knows, ?_,
    fun rows listed => (right rows listed).symm, rfl, ?_⟩
  · cases known with
    | some rows =>
      rw [if_neg (fun wrong => by cases wrong.1), right rows rfl]
      exact Always.map_acts inOrder.sound _ (Executing.count_known knows)
    | none =>
      obtain ⟨made, -⟩ := Arena.countPlan_made foundRoot
      cases places : executor.countsOnWorkers operator with
      | false =>
        obtain ⟨_, _, _, counted⟩ := custody.counts_locally { executor with state } musters built
          yields found small supplies counts (.inl rfl) places stands
        exact Always.map_acts inOrder.sound _ (Executing.count_unknown knows made counted)
      | true =>
        have commanded : executor.spawner = some id := by
          rcases commands with commanded | ⟨alone, locally⟩
          · exact commanded
          · rw [Executor.countsOnWorkers, alone, locally] at places
            cases places
        obtain ⟨_, _, _, counted⟩ := custody.counts_onWorkers { executor with state } inOrder.keeps
          runsPlans musters commanded built fits room only yields found small supplies counts
          (fun rank inside => .inr ⟨rank, inside, rfl⟩) places heldToo
        exact Always.map_acts inOrder.sound _ (Executing.count_unknown knows made counted)
  · intro unlimited
    split
    · exact yields.sum_portions unlimited supplies (custody.musters_pos musters)
    · rfl

end Office

end Numbers

/-! A table of two rows on two workers: the first of the rows that are marked. -/

namespace Limiting

open Filtering (Piece rows? expression?)

/-- What is built: a limit, a call to the aggregate that counts, that aggregate, or what is built
for filters and projections. -/
def build? (pieces : List Piece) : List (EngineArgument Nat) → Option Piece
  | [.owned source, .index count, .index offset] => do
    let rows ← rows? pieces source
    return .relation ((rows.drop offset).take count)
  | [.borrowed _, .text _, .indices _, .boolean _] =>
    some (.expression fun row => row[0]?.getD .null)
  | [.owned source, .indices _, .list _] => do
    let rows ← rows? pieces source
    return .relation [[.ofCount rows.length]]
  | arguments => Filtering.build? pieces arguments

/-- An engine that keeps all pieces that it has built. -/
def engine : Engine (List Piece) Nat where
  create _ _ arguments := ExceptT.mk fun pieces =>
    (build? pieces arguments).elim (.error Filtering.unknown, pieces) fun piece =>
      (.ok pieces.length, pieces ++ [piece])
  optimize handle := return handle
  execute handle _ _ := ExceptT.mk fun pieces =>
    (rows? pieces handle).elim (.error Filtering.unknown, pieces) fun rows =>
      (.ok (.ofRows { fields := [countField] } rows), pieces)
  size _ _ := 0
  rows _ _ := none

/-- The scan, its only column, the rows on which that is true, and the first of them. -/
def plan : Arena where
  nodes :=
    let only : Field := ⟨"v", .boolean, false⟩
    [⟨.ofSchema ⟨[only]⟩, .operator (.partitionScan (.pending ⟨0⟩) 2)⟩,
      ⟨.ofField only, .expression (.column ⟨0⟩ 0)⟩,
      ⟨.ofSchema ⟨[only]⟩, .operator (.filter ⟨0⟩ ⟨1⟩)⟩,
      ⟨.ofSchema ⟨[only]⟩, .operator (.limit ⟨2⟩ 1 0)⟩]

/-- The piece that a handle stands for. All expressions are over one column. -/
def piece : Item → Piece
  | .relation _ rows => .relation rows
  | .expression _ => .expression fun row => row[0]?.getD .null

/-- What expressions mean, and the handles of the engine. -/
def textbook : Textbook (List Piece) Nat where
  holds pieces items := ∀ entry ∈ items, pieces[entry.1]? = some (piece entry.2)
  value _ row := row[0]?.getD .null
  passes found := found = .boolean true
  shape := { fields := [countField] }
  before _ _ _ := true

/-- What the plan makes of rows. -/
def change (rows : List Row) : List Row :=
  ((rows.filter fun row => textbook.passes (textbook.value ⟨1⟩ row)).drop 0).take 1

section Pieces

variable {pieces : List Piece} {items : List (Nat × Item)} {handle : Nat}

/-- A piece that can be built stands for what it is, and all others for what they stood for. -/
theorem creates (node : Node) {arguments : List (EngineArgument Nat)} {item : Item}
    (built : build? pieces arguments = some (piece item)) (held : textbook.holds pieces items) :
    textbook.Creates engine node arguments pieces item items := by
  refine ⟨pieces.length, pieces ++ [piece item], ?_, ?_⟩
  · show (build? pieces arguments).elim _ _ = _
    rw [built]
    rfl
  · intro entry member
    rcases List.mem_cons.mp member with rfl | before
    · exact List.getElem?_concat_length
    · have there := held entry before
      rwa [List.getElem?_append_left (List.getElem?_eq_some_iff.mp there).1]

/-- The pieces that stand for a relation give its rows. -/
theorem rows?_of_held {place : NodeId} {rows : List Row} (held : textbook.holds pieces items)
    (member : (handle, .relation place rows) ∈ items) : rows? pieces handle = some rows := by
  rw [rows?, held _ member, piece]

/-- The pieces that stand for an expression give the first value of the row. -/
theorem expression?_of_held {place : NodeId} (held : textbook.holds pieces items)
    (member : (handle, .expression place) ∈ items) :
    expression? pieces (.owned handle) = some fun row => row[0]?.getD .null := by
  rw [expression?, held _ member, piece]

end Pieces

/-- The plan came about by the calls of clients. -/
theorem plan_built : plan.IsBuilt :=
  .adding _ _ (.adding _ _ (.adding _ _ (.adding _ _ .empty rfl) rfl) rfl) rfl

/-- All numbers in the plan are machine words. -/
theorem plan_fits : plan.Fits := by
  unfold Arena.Fits plan
  simp [Node.Fits, Operator.Fits, Expression.Fits, NodeId.Fits, nodesFit]

/-- By the book the plan keeps the first of the rows that are marked. -/
theorem plan_yields : plan.Yields textbook ⟨0⟩ ⟨3⟩ change := by
  have marked : plan.OnRows ⟨0⟩ ⟨1⟩ := ⟨_, .leaf ⟨1⟩ (.column ⟨0⟩ 0) _ rfl rfl, rfl⟩
  have filtered : plan.Yields textbook ⟨0⟩ ⟨2⟩
      (List.filter fun row => textbook.passes (textbook.value ⟨1⟩ row)) :=
    .step ⟨2⟩ ⟨0⟩ (.filter ⟨0⟩ ⟨1⟩) _ _ rfl rfl rfl (List.forall_mem_singleton.mpr marked)
      (.scan (.partitionScan (.pending ⟨0⟩) 2) rfl rfl)
  have limited : plan.Yields textbook ⟨0⟩ ⟨3⟩ _ :=
    .step ⟨3⟩ ⟨2⟩ (.limit ⟨2⟩ 1 0) (fun rows => (rows.drop 0).take 1) _ rfl rfl rfl
      (List.forall_mem_nil _) filtered
  exact limited

/-- The plan that counts has the nodes of the plan first. -/
theorem plan_counting : (plan.counting ⟨3⟩).nodes = plan.nodes ++ plan.countNodes ⟨3⟩ [0] := rfl

/-- The operators of the plan and of the one that counts. -/
theorem operator_cases {id : NodeId} {node : Node} {operator : Operator}
    (found : (plan.counting ⟨3⟩).nodes[id.index]? = some node)
    (content : node.content = .operator operator) :
    operator = .partitionScan (.pending ⟨0⟩) 2 ∨ operator = .filter ⟨0⟩ ⟨1⟩ ∨
      operator = .limit ⟨2⟩ 1 0 ∨ operator = .aggregate ⟨3⟩ [] [⟨4⟩] ∨
      operator = .projection ⟨5⟩ [⟨6⟩] := by
  rw [plan_counting] at found
  obtain ⟨index⟩ := id
  rcases index with _ | _ | _ | _ | _ | _ | _ | _ | _ <;> cases found <;> cases content <;>
    simp [plan, Arena.size]

/-- The expressions of the plan and of the one that counts. -/
theorem expression_cases {id : NodeId} {node : Node} {expression : Expression}
    (found : (plan.counting ⟨3⟩).nodes[id.index]? = some node)
    (content : node.content = .expression expression) :
    (∃ source, expression = .column source 0) ∨
      ∃ columns, expression = .aggregate ⟨3⟩ countFunction columns false := by
  rw [plan_counting] at found
  obtain ⟨index⟩ := id
  rcases index with _ | _ | _ | _ | _ | _ | _ | _ | _ <;> cases found <;> cases content <;> simp

/-- The engine counts the rows of the plan by the book, whatever tables are handed to it. -/
theorem counts (handed : Batch → Prop) : textbook.Counts engine plan ⟨3⟩ handed where
  shape := rfl
  columns id source index found row := by
    obtain ⟨node, there, content⟩ := (Arena.expression_iff _).mp found
    rcases expression_cases there content with ⟨_, same⟩ | ⟨_, wrong⟩
    · obtain ⟨-, rfl⟩ := Expression.column.inj same
      rfl
    · cases wrong
  builds := {
    reorder := fun _ _ _ held same entry member => held entry (same.mem_iff.mpr member)
    scan := fun id node operator table others state found content scans _ held => by
      rcases operator_cases found content with rfl | rfl | rfl | rfl | rfl
      · exact creates node rfl held
      all_goals cases scans
    expression := fun id node expression arguments taken others state found content _ presents held => by
      have kept : textbook.holds state others :=
        fun entry member => held entry (List.mem_append_right _ member)
      rw [Node.operands, content] at presents
      rcases expression_cases found content with ⟨_, rfl⟩ | ⟨_, rfl⟩
      · obtain ⟨handle, rfl⟩ := presents.of_source rfl [.index 0] rfl
        exact creates node rfl kept
      · obtain ⟨handle, rfl⟩ := presents.of_source rfl [.text _, .indices _, .boolean _] rfl
        exact creates node rfl kept
    change := fun id node operator source change rows arguments taken others state found content single
        changes presents listed held => by
      have kept : textbook.holds state others :=
        fun entry member => held entry (List.mem_append_right _ member)
      obtain ⟨given, member⟩ := listed
      have below := rows?_of_held held (List.mem_append_left _ member)
      rw [Node.operands, content] at presents
      rcases operator_cases found content with rfl | rfl | rfl | rfl | rfl
      · cases single
      · obtain rfl := List.singleton_inj.mp single
        obtain rfl := Option.some.inj changes
        obtain ⟨rest, parts, rfl, rfl, further⟩ := presents.of_input rfl rfl member
        obtain ⟨handle, rfl, rfl⟩ := further.of_expression
        refine creates node ?_ kept
        simp only [build?, Filtering.build?, below,
          expression?_of_held held (List.mem_cons_of_mem _ List.mem_cons_self)]
        rfl
      · obtain rfl := List.singleton_inj.mp single
        obtain rfl := Option.some.inj changes
        obtain ⟨rest, parts, rfl, rfl, further⟩ := presents.of_input rfl rfl member
        obtain rfl := further.of_plain [.index 1, .index 0] rfl
        refine creates node ?_ kept
        rw [build?, below]
        rfl
      · obtain rfl := List.singleton_inj.mp single
        obtain rfl := Option.some.inj changes
        obtain ⟨rest, parts, rfl, rfl, further⟩ := presents.of_input rfl rfl member
        cases further with
        | plain _ _ _ _ _ same further =>
          obtain rfl := Option.some.inj same
          obtain ⟨given, rfl, -⟩ := further.of_list
          refine creates node ?_ kept
          rw [build?, below]
          rfl
      · obtain rfl := List.singleton_inj.mp single
        obtain rfl := Option.some.inj changes
        obtain ⟨rest, parts, rfl, rfl, further⟩ := presents.of_input rfl rfl member
        obtain ⟨given, rfl, listed⟩ := further.of_list
        obtain ⟨handle, rfl, rfl⟩ := listed.of_expression
        refine creates node ?_ kept
        simp only [build?, Filtering.build?, below, List.mapM_cons,
          expression?_of_held held (List.mem_cons_of_mem _ List.mem_cons_self)]
        rfl
  }
  finishes := {
    optimize := fun handle rows state held => ⟨handle, state, rfl, held⟩
    execute := fun handle rows output state _ held => by
      refine ⟨state, ?_⟩
      show (rows? state handle).elim _ _ = _
      rw [rows?_of_held held List.mem_cons_self]
      rfl
  }
  forgets _ _ _ held entry member := held entry (List.mem_cons_of_mem _ member)
  rows _ _ _ _ _ wrong := by cases wrong

/-- Workers that keep tables and run plans. -/
def registry : Registry where
  bodies := [(Body.scatterName, .scatter), (executePlanName, .executePlan engine [])]

/-- The table that the plan scans. -/
def table : Batch := ⟨⟨[⟨"v", .boolean, false⟩]⟩, [[.boolean true, .boolean true]], 2⟩

/-- The coordinator keeps the table. It starts groups of two workers, and none has been started. -/
def office : Office where
  world := {
    spawners := [{ options := { workers := some 2 } }], tables := [{ frame := .collected table }] }
  traffic := Exchange.nobody registry
  deposits := []

/-- The office is in order. -/
theorem office_inOrder : office.InOrder ⟨0⟩ :=
  Office.IsOpening.inOrder {
    sound := Exchange.nobody_isSound registry
    keeps := ⟨rfl, Nat.succ_pos _⟩
    idle := ⟨_, rfl, rfl, rfl, rfl⟩
    nothing := rfl }

/-- The workers of the office know how to run plans. -/
theorem office_runsPlans : office.traffic.registry.RunsPlans engine [] := ⟨rfl, Nat.succ_pos _⟩

/-- The groups of the office have two workers. -/
theorem office_musters : SpawnerId.Musters ⟨0⟩ office.world 2 where
  live _ wrong := by cases wrong
  idle spawner found _ := by
    obtain rfl := Option.some.inj found
    rfl

/-- The workers are supplied with the blocks of the table. -/
theorem office_supplies :
    office.world.Supplies ⟨0⟩ office.deposits 2 (.partitionScan (.pending ⟨0⟩) 2) table
      (table.block 2) :=
  .kept ⟨0⟩ 2 _ _ (.collected _ table rfl rfl fun _ wrong => by cases wrong)

/-- The plan scans no other table. -/
theorem plan_scans (place : NodeId) (found : LazyTable) (scans : plan.ScansAt place found) :
    plan.Reaches ⟨3⟩ place := by
  obtain ⟨node, there, scanned⟩ := scans
  obtain ⟨index⟩ := place
  rcases index with _ | _ | _ | _ | _ <;> cases there <;> cases scanned
  exact plan_yields.isLine.reaches_scan

/-- The executor. -/
def executor : Executor (List Piece) := { state := [], spawner := some ⟨0⟩ }

end Limiting

namespace Office

/-- The number of rows of a plan with a limit on two workers. -/
theorem marked_counted : ∃ known count,
    Limiting.office.Always (Prod.fst <$>
      (Executing.knownRows Limiting.engine Limiting.plan ⟨3⟩).run.run Limiting.executor) (.ok known) ∧
    Limiting.office.Always ((fun ended => ended.1.1) <$>
      (Executing.count Limiting.engine ⟨3⟩ Limiting.plan).run Limiting.executor) (.ok count) ∧
    (∀ rows ∈ known, rows = (Limiting.change Limiting.table.rowList).length) ∧
    count = (if known = none ∧
          Limiting.executor.countsOnWorkers (.partitionScan (.pending ⟨0⟩) 2) = true then
        ((List.range 2).map fun rank =>
          (Limiting.change (Limiting.table.block 2 rank).rowList).length).sum
      else (Limiting.change Limiting.table.rowList).length) ∧
    (Limiting.plan.IsUnlimited ⟨3⟩ → count = (Limiting.change Limiting.table.rowList).length) :=
  count_exact Limiting.office_inOrder Limiting.office_runsPlans Limiting.executor (.inl rfl)
    Limiting.office_musters Limiting.plan_built Limiting.plan_fits (by decide : 7 < 2 ^ 64)
    Limiting.plan_scans Limiting.plan_yields rfl Limiting.office_supplies rfl (Limiting.counts _)
    (List.forall_mem_nil _) (List.forall_mem_nil _)

/-- By the book the plan has one row, but two are counted on two workers. -/
theorem limited_counted_twice :
    Limiting.plan.Yields Limiting.textbook ⟨0⟩ ⟨3⟩ Limiting.change ∧
    Limiting.textbook.Counts Limiting.engine Limiting.plan ⟨3⟩ (fun _ => True) ∧
    (Limiting.change Limiting.table.rowList).length = 1 ∧
    Limiting.office.Always ((fun ended => ended.1.1) <$>
      (Executing.count Limiting.engine ⟨3⟩ Limiting.plan).run Limiting.executor) (.ok 2) := by
  refine ⟨Limiting.plan_yields, Limiting.counts _, by decide, ?_⟩
  obtain ⟨spawner, custody⟩ := Limiting.office_inOrder.custody
  obtain ⟨made, -⟩ := Arena.countPlan_made (show Limiting.plan.operator ⟨3⟩ = .ok _ from rfl)
  obtain ⟨_, _, _, counted⟩ := custody.counts_onWorkers Limiting.executor
    Limiting.office_inOrder.keeps Limiting.office_runsPlans Limiting.office_musters rfl
    Limiting.plan_built Limiting.plan_fits (by decide : 7 < 2 ^ 64) Limiting.plan_scans
    Limiting.plan_yields rfl (by decide : 2 < 2 ^ 64) Limiting.office_supplies
    (Limiting.counts fun _ => True) (fun _ _ => trivial) rfl (List.forall_mem_nil _)
  have both : ((List.range 2).map fun rank =>
      (Limiting.change (Limiting.table.block 2 rank).rowList).length).sum = 2 := by decide
  rw [both] at counted
  have scans : Limiting.plan.hasScan ⟨3⟩ = .ok true :=
    Limiting.plan_yields.isLine.hasScan Limiting.plan_built rfl Limiting.office_supplies
  exact Always.map_acts Limiting.office_inOrder.sound _
    (Executing.count_unknown (Executing.knownRows_lazy rfl scans) made counted)

end Office

end Rankwise

import Rankwise.Proofs.Clients
import Rankwise.Proofs.Placement
import Rankwise.Proofs.RowRuns

/-!
# Runs on the workers and in one process

A plan that works row by row gives the same table on the workers as in the process of the
coordinator (`Office.rows_agree`). Its only scan is settled first, so every rank finds its portion
of the table (`Custody.settleScans`). The written plan is read back with the name of the table in
its place, and every rank makes of its portion what the coordinator would make of it. Rows are dealt
with one by one, so what the ranks give makes up what comes of the whole table.
-/

namespace Rankwise

section Agreement

variable {ε η : Type} {meaning : RowMeaning ε η} {engine : Engine ε η} {fresh : ε} {arena : Arena}
  {operator : Operator} {root scan : NodeId} {handed : Batch → Prop} {each : Row → Option Row}
  {id : SpawnerId} {world : World} {spawner : Spawner} {fleet : Fleet} {deposits : List Deposit}
  {size : Nat} {whole : Batch} {portion : Nat → Batch} {practice : Practice}
  {change : List Row → List Row}

/-- What a scan is to be handed: the whole table in one process, and on each rank its portion. -/
inductive World.Supplies (world : World) (id : SpawnerId) (deposits : List Deposit) (size : Nat) :
    Operator → Batch → (Nat → Batch) → Prop
  /-- The plan holds the table. -/
  | held (table : Batch) :
      world.Supplies id deposits size (.tableScan table) table (table.block size)
  /-- The coordinator keeps the table until the workers need it. -/
  | kept (key : LazyKey) (rows : Nat) (whole : Batch) (portion : Nat → Batch)
      (provides : world.Provides id deposits size key whole portion) :
      world.Supplies id deposits size (.partitionScan (.pending key) rows) whole portion

/-- An operator that is supplied with a table is one that scans a table. -/
theorem World.Supplies.scansTable (supplies : world.Supplies id deposits size operator whole portion) :
    operator.scansTable = true := by
  cases supplies <;> rfl

/-- The portions of all ranks are the rows of the whole table, in order. -/
theorem World.Supplies.rows (supplies : world.Supplies id deposits size operator whole portion)
    (manned : 0 < size) :
    ((List.range size).map portion).flatMap Batch.rowList = whole.rowList := by
  cases supplies with
  | held => exact whole.rowList_blocks size manned
  | kept _ _ _ _ provides => exact provides.rows manned

/-- If all scans of tables on the workers belong to a line, the name of its own table is all that is
needed to write the plan. -/
theorem Arena.IsLine.isNamed (line : arena.IsLine scan root)
    (only : ∀ place table, arena.ScansAt place table → arena.Reaches root place)
    (found : arena.operator scan = .ok operator) {names : LazyNames}
    (named : operator.IsNamed names) : arena.IsNamed names := by
  intro node member
  obtain ⟨index, inside, rfl⟩ := List.getElem_of_mem member
  have there : arena.nodes[(NodeId.mk index).index]? = some arena.nodes[index] :=
    List.getElem?_eq_getElem inside
  rw [Node.IsNamed]
  split
  case h_2 => trivial
  case h_1 above content =>
    cases above with
    | partitionScan table rows =>
      have here : arena.operator ⟨index⟩ = .ok (.partitionScan table rows) :=
        (Arena.operator_iff _).mpr ⟨_, there, content⟩
      have reaches := only ⟨index⟩ table ((Arena.scansAt_iff table).mpr ⟨rows, here⟩)
      obtain rfl := (line.along reaches).scan_eq here rfl
      obtain rfl := Except.ok.inj (here.symm.trans found)
      exact named
    | _ => trivial

namespace Custody

/-- There is at least one worker. -/
theorem musters_pos (custody : Custody id world spawner fleet deposits)
    (musters : id.Musters world size) : 0 < size := by
  obtain ⟨ready, after, last, group, -, kept, -, readied⟩ := custody.readies musters
  exact readied.sized ▸ (kept.attended group (kept.group?_eq.symm.trans readied.live)).manned

/-- The coordinator is handed the whole table. -/
theorem hands_whole (ε : Type) (custody : Custody id world spawner fleet deposits)
    (musters : id.Musters world size)
    (supplies : world.Supplies id deposits size operator whole portion) :
    ∃ later last, ∀ action : StateT (Executor ε) (StateT World Dialogue) (Except Stop Batch),
      operator.asks? Executing.localResolver = some action → ∀ executor,
        Acts (action.run executor) world fleet (.ok whole, executor) later last := by
  cases supplies with
  | held table =>
    refine ⟨world, fleet, fun action asked executor => ?_⟩
    obtain rfl := Option.some.inj asked
    rfl
  | kept key rows _ _ provides =>
    obtain ⟨later, last, fetched⟩ := custody.fetchKept musters provides
    refine ⟨later, last, fun action asked executor => ?_⟩
    obtain rfl := Option.some.inj asked
    exact (Runs.coordinate_iff _ _).mpr ⟨fetched, rfl⟩

end Custody

/-- Once the group is ready, every rank is handed its portion. -/
def SpawnerId.HandsPortions (id : SpawnerId) (ε : Type) (world : World) (deposits : List Deposit)
    (size : Nat) (operator : Operator) (portion : Nat → Batch) : Prop :=
  ∀ ready spawner fleet group stores, Custody id ready spawner fleet deposits →
    id.Readied world ready size group → fleet.AtRest group stores → ∀ rank < size,
      ∀ action : StateM ε (Except Stop Batch),
        (operator.resolved world.names).asks? (.ofRank rank size (fun _ => none) (stores rank).find?) =
          some action → ∀ state, action.run state = (.ok (portion rank), state)

/-- Every rank of a group has its block of a table. -/
theorem Resolver.blockOf_eq (table : Batch) {rank size : Nat} (inside : rank < size) :
    blockOf rank size table = .ok (table.block size rank) := by
  unfold blockOf
  rw [table.splitEven_eq size (Nat.zero_lt_of_lt inside)]
  simp [Bind.bind, Except.bind, inside]
  rfl

/-- A rank takes its block of a table that the plan holds. -/
theorem SpawnerId.handsPortions_held (id : SpawnerId) (world : World) (deposits : List Deposit)
    (size : Nat) (table : Batch) :
    id.HandsPortions ε world deposits size (.tableScan table) (table.block size) := by
  intro ready spawner fleet group stores _ _ _ rank inside action asked state
  obtain rfl := Option.some.inj asked
  show (pure _ : StateM ε (Except Stop Batch)).run state = _
  rw [Resolver.blockOf_eq table inside]
  rfl

/-- A rank takes what it stores under the name of the table. -/
theorem SpawnerId.Placed.handsPortions {deposit : Deposit}
    (placed : id.Placed size portion deposits deposit world spawner fleet) (key : LazyKey) (rows : Nat)
    (named : world.names key = some deposit.handle.id) :
    id.HandsPortions ε world deposits size (.partitionScan (.pending key) rows) portion := by
  intro ready after last group stores custody readied rests rank inside action asked state
  obtain ⟨member, held, before, live, own⟩ := placed.isThere
  obtain rfl := readied.same before live
  have still : ready.IsHeld deposit.handle := by
    unfold World.IsHeld
    rw [readied.shares]
    exact held
  have stored := custody.stored readied.live rests member own still (readied.sized.symm ▸ inside)
  have resolved : (Operator.partitionScan (.pending key) rows).resolved world.names =
      .partitionScan (.stored deposit.handle.id) rows := by
    rw [Operator.resolved, LazyTable.resolved, LazyTable.resultId?, named]
    rfl
  have taken : Resolver.partitionOf rank (fun _ => none) (stores rank).find?
      (.stored deposit.handle.id) = .ok (portion rank) := by
    rw [Resolver.partitionOf, LazyTable.resultId?]
    dsimp only
    rw [stored, placed.computed]
  rw [resolved] at asked
  obtain rfl := Option.some.inj asked
  show (pure ((Resolver.partitionOf rank _ _ (.stored deposit.handle.id)).mapError Stop.failed) :
    StateM ε (Except Stop Batch)).run state = _
  rw [taken]
  rfl

/-- After the scan of a line is settled, the plan can be written and every rank will be handed its
portion. -/
theorem Custody.settleScans (ε : Type) (custody : Custody id world spawner fleet deposits)
    (keeps : fleet.registry.KeepsTables) (musters : id.Musters world size)
    (built : arena.IsBuilt) (line : arena.IsLine scan root)
    (found : arena.operator scan = .ok operator)
    (supplies : world.Supplies id deposits size operator whole portion) :
    ∃ count later after last record,
      Acts (Executing.settleScans arena root id).run world fleet (.ok count) later last ∧
      Custody id later after last record ∧ id.Musters later size ∧ last.registry = fleet.registry ∧
      operator.IsNamed later.names ∧ id.HandsPortions ε later record size operator portion := by
  cases supplies with
  | held =>
    refine ⟨0, world, spawner, fleet, deposits, ?_, custody, musters, rfl, trivial,
      id.handsPortions_held world deposits size whole⟩
    unfold Executing.settleScans
    rw [line.scans_held built found]
    rfl
  | kept key rows _ _ provides =>
    obtain ⟨deposit, record, later, after, last, settled, placed, registered, named⟩ :=
      custody.settles keeps musters provides
    refine ⟨1, later, after, last, record, ?_, placed.custody, placed.musters, registered, ?_,
      placed.handsPortions key rows named⟩
    · unfold Executing.settleScans
      rw [line.scans_lazy built found]
      exact Acts.bindOk (Acts.bindOk (Acts.bindOk settled rfl) rfl) rfl
    · show (later.names key).isSome = true
      rw [named]
      rfl

/-- Runs a plan on the workers and fetches the table that comes of it. -/
def Executing.executeAndFetch (arena : Arena) (root : NodeId) : Executing ε Batch := do
  let frame ← executeOnWorkers arena root
  coordinate frame.table

/-- On the workers a line gives a result that lies on the ranks: each of them stores the table of
the rows that the line makes of those of its portion. -/
theorem Custody.places_onWorkers (custody : Custody id world spawner fleet deposits)
    (keeps : fleet.registry.KeepsTables) (runs : fleet.registry.RunsPlans engine fresh)
    (musters : id.Musters world size) (executor : Executor ε) (commands : executor.spawner = some id)
    (built : arena.IsBuilt) (fits : arena.Fits) (rooted : root.Fits)
    (line : arena.IsLine scan root)
    (only : ∀ place table, arena.ScansAt place table → arena.Reaches root place)
    (found : arena.operator scan = .ok operator)
    (supplies : world.Supplies id deposits size operator whole portion)
    (builds : meaning.Builds practice engine arena handed)
    (finishes : meaning.Finishes engine arena root) (given : ∀ rank < size, handed (portion rank))
    (held : meaning.holds fresh [])
    (makes : arena.Makes practice scan root change) :
    ∃ partitioned deposit record later after last,
      Runs (Executing.executeOnWorkers arena root) executor world fleet
        (.ok (.distributed partitioned deposit.handle)) executor.counted later last ∧
      id.Placed size (fun rank => .ofRows meaning.shape (change (portion rank).rowList)) record deposit
        later after last := by
  obtain ⟨count, between, halfway, middle, record, settled, kept, musters, registered, named, hands⟩ :=
    custody.settleScans ε keeps musters built line found supplies
  obtain ⟨payload, written⟩ := Option.isSome_iff_exists.mp
    ((RootedPlan.encode?_isSome between.names arena root).mpr (line.isNamed only found named))
  have read := receivedPlan_written between.names arena root fits rooted payload written
  have runsThen : middle.registry.RunsPlans engine fresh := registered.symm ▸ runs
  obtain ⟨partitioned, deposit, later, after, last, called, placed, -⟩ :=
    kept.callFrame musters (planArguments_ordered payload.sorted)
      (fun isLive => SpawnerId.plan_prepares isLive payload.sorted)
      (fun rank => .ofRows meaning.shape (change (portion rank).rowList)) (by
        intro ready tended last group custody readied registeredToo prepared prepares stores rests rank
          inside
        have came := runOnRank_rows (builds.resolved between.names) (finishes.resolved between.names)
          (given rank (readied.sized ▸ inside)) (Arena.operator_resolved found)
          (built.forward.resolved between.names) (makes.resolved between.names)
          (hands ready tended last group stores custody readied rests rank (readied.sized ▸ inside)) held
        rw [outcome?_plan engine fresh last.registry (registeredToo.symm ▸ runsThen) payload.sorted _
          read ready.isLive prepared prepares, readied.sized, came]
        rfl)
  have onWorkers := (Executing.onWorkers_iff arena root _).mpr ⟨id, commands,
    fun _ => line.displays built world.names, count, between, middle, payload, settled, written, called,
    rfl⟩
  exact ⟨_, deposit, _, later, after, last, onWorkers, placed⟩

/-- The table of a result that lies on the ranks is fetched. -/
theorem SpawnerId.Placed.fetches {partition : Nat → Batch} {deposit : Deposit}
    (placed : id.Placed size partition deposits deposit world spawner fleet) {table : Batch}
    (joins : Group.joinPartitions ((List.range size).map partition) = .ok table) :
    ∃ later after last, Acts deposit.handle.gather.run world fleet (.ok table) later last ∧
      Custody id later after last deposits := by
  obtain ⟨member, isHeld, group, live, own⟩ := placed.isThere
  obtain ⟨answer, after, last, fetched, kept, -, gathers⟩ := placed.custody.gather deposit member
  rw [gathers isHeld group live own, placed.musters.live group live, placed.computed, joins] at fetched
  exact ⟨_, after, last, fetched, kept⟩

/-- On the workers a chain gives the table of the rows that it makes of those of the whole table. -/
theorem Custody.runs_onWorkers (custody : Custody id world spawner fleet deposits)
    (keeps : fleet.registry.KeepsTables) (runs : fleet.registry.RunsPlans engine fresh)
    (musters : id.Musters world size) (executor : Executor ε) (commands : executor.spawner = some id)
    (built : arena.IsBuilt) (fits : arena.Fits) (rooted : root.Fits)
    (chain : arena.IsChain scan root)
    (only : ∀ place table, arena.ScansAt place table → arena.Reaches root place)
    (found : arena.operator scan = .ok operator)
    (supplies : world.Supplies id deposits size operator whole portion)
    (works : meaning.WorksByRows engine arena root handed)
    (given : ∀ rank < size, handed (portion rank)) (held : meaning.holds fresh [])
    (maps : arena.Makes meaning.byRows scan root (List.filterMap each)) :
    ∃ after later last, Runs (Executing.executeAndFetch arena root) executor world fleet
      (.ok (.ofRows meaning.shape (whole.rowList.filterMap each))) after later last := by
  obtain ⟨partitioned, deposit, record, between, halfway, middle, onWorkers, placed⟩ :=
    custody.places_onWorkers keeps runs musters executor commands built fits rooted chain.isLine only
      found supplies works.builds works.finishes given held maps
  have manned := placed.custody.musters_pos placed.musters
  obtain ⟨_, _, _, fetched, -⟩ := placed.fetches
    (Group.joinPartitions_rows meaning.shape each size manned whole portion (supplies.rows manned))
  exact ⟨_, _, _, onWorkers.bind ((Runs.coordinate_iff _ _).mpr ⟨fetched, rfl⟩)⟩

namespace Office

/-- What is made of the value that acting comes to is what acting comes to. -/
theorem Always.map_acts {α β : Type} {office : Office} {acting : Acting α} {value : α} {later : World}
    {last : Fleet} (sound : office.traffic.IsSound) (make : α → β)
    (acts : Acts acting office.world office.traffic.settled value later last) :
    office.Always (make <$> acting) (make value) := by
  have made : Acts (make <$> acting) office.world office.traffic.settled (make value) later last := by
    rw [map_eq_pure_bind]
    exact acts.bind (Acts.pure _ _ _)
  exact Always.of_acts sound made

/-- A chain of filters and projections above a scan of a table gives the same table on the workers
as in one process, in whatever order coordinator and workers go on: with a table that the plan
holds, with one that the coordinator keeps until the workers need it and with one that lies on the
ranks in whatever portions, and whatever the number of workers. The engine deals with rows one by
one and without failing, and the plan scans no other table on the workers. -/
theorem rows_agree {office : Office} (inOrder : office.InOrder id)
    (runs : office.traffic.registry.RunsPlans engine fresh) (executor : Executor ε)
    (commands : executor.spawner = some id) (musters : id.Musters office.world size)
    (built : arena.IsBuilt) (fits : arena.Fits) (rooted : root.Fits)
    (chain : arena.IsChain scan root)
    (only : ∀ place table, arena.ScansAt place table → arena.Reaches root place)
    (found : arena.operator scan = .ok operator)
    (supplies : office.world.Supplies id office.deposits size operator whole portion)
    (works : meaning.WorksByRows engine arena root fun table =>
      table = whole ∨ ∃ rank < size, table = portion rank)
    (held : meaning.holds executor.state []) (heldToo : meaning.holds fresh []) :
    ∃ batch,
      office.Always (Prod.fst <$> (Executing.executeLocally engine arena root).run.run executor)
        (.ok batch) ∧
      office.Always (Prod.fst <$> (Executing.executeAndFetch arena root).run.run executor)
        (.ok batch) := by
  obtain ⟨spawner, custody⟩ := inOrder.custody
  obtain ⟨each, maps⟩ := chain.maps meaning
  obtain ⟨between, middle, hands⟩ := custody.hands_whole ε musters supplies
  obtain ⟨_, _, _, here⟩ := Executing.runs_locally works (.inl rfl) found built.forward maps
    (fun names => chain.displays built names) hands held
  obtain ⟨_, _, _, there⟩ := custody.runs_onWorkers inOrder.keeps runs musters executor commands built
    fits rooted chain only found supplies works (fun rank inside => .inr ⟨rank, inside, rfl⟩) heldToo
    maps
  exact ⟨.ofRows meaning.shape (whole.rowList.filterMap each),
    Always.map_acts inOrder.sound Prod.fst here, Always.map_acts inOrder.sound Prod.fst there⟩

end Office

end Agreement

/-! A table of three rows on two workers: of the rows that have a first value the second one. -/

namespace Filtering

/-- What a handle of the engine stands for. -/
inductive Piece where
  | relation (rows : List Row)
  | expression (value : Row → Scalar)

/-- The expression behind a handle. -/
def expression? (pieces : List Piece) : EngineArgument Nat → Option (Row → Scalar)
  | .owned handle =>
    match pieces[handle]? with
    | some (.expression value) => some value
    | _ => none
  | _ => none

/-- The rows behind a handle. -/
def rows? (pieces : List Piece) (handle : Nat) : Option (List Row) :=
  match pieces[handle]? with
  | some (.relation rows) => some rows
  | _ => none

/-- What is built: a scan, a column, the question whether there is a value, a projection or a
filter. -/
def build? (pieces : List Piece) : List (EngineArgument Nat) → Option Piece
  | [.table table, .index _] => some (.relation table.rowList)
  | [.borrowed _, .index column] => some (.expression fun row => row[column]?.getD .null)
  | [part, .text _] => do
    let value ← expression? pieces part
    return .expression fun row => .boolean (value row ≠ .null)
  | [.owned source, .list parts] => do
    let rows ← rows? pieces source
    let values ← parts.mapM (expression? pieces)
    return .relation (rows.map fun row => values.map fun value => value row)
  | [.owned source, part] => do
    let rows ← rows? pieces source
    let value ← expression? pieces part
    return .relation (rows.filter fun row => value row = .boolean true)
  | _ => none

/-- The shape of the tables that the engine gives. -/
def shape : Schema := ⟨[⟨"b", .int64, true⟩]⟩

/-- Nothing of the kind is there. -/
def unknown : Failure := { message := "Unknown node" }

/-- An engine that keeps all pieces that it has built. -/
def engine : Engine (List Piece) Nat where
  create _ _ arguments := ExceptT.mk fun pieces =>
    (build? pieces arguments).elim (.error unknown, pieces) fun piece =>
      (.ok pieces.length, pieces ++ [piece])
  optimize handle := return handle
  execute handle _ _ := ExceptT.mk fun pieces =>
    (rows? pieces handle).elim (.error unknown, pieces) fun rows => (.ok (.ofRows shape rows), pieces)
  size _ _ := 0
  rows _ _ := none

/-- The scan, whether its first column has a value, the rows for which it has, and their second
column. -/
def plan : Arena where
  nodes :=
    let first : Field := ⟨"a", .int64, true⟩
    let second : Field := ⟨"b", .int64, true⟩
    [⟨.ofSchema ⟨[first, second]⟩, .operator (.partitionScan (.pending ⟨0⟩) 3)⟩,
      ⟨.ofField first, .expression (.column ⟨0⟩ 0)⟩,
      ⟨.ofField ⟨"a", .boolean, false⟩, .expression (.unary ⟨1⟩ .isNotNull)⟩,
      ⟨.ofSchema ⟨[first, second]⟩, .operator (.filter ⟨0⟩ ⟨2⟩)⟩,
      ⟨.ofField second, .expression (.column ⟨3⟩ 1)⟩,
      ⟨.ofSchema ⟨[second]⟩, .operator (.projection ⟨3⟩ [⟨4⟩])⟩]

/-- The value of an expression of the plan on a row. -/
def value (place : NodeId) (row : Row) : Scalar :=
  match place.index with
  | 1 => row[0]?.getD .null
  | 2 => .boolean (row[0]?.getD .null ≠ .null)
  | _ => row[1]?.getD .null

/-- The piece is what the handle stands for. -/
def Piece.Is (piece : Piece) : Item → Prop
  | .relation _ rows => piece = .relation rows
  | .expression place => piece = .expression (value place)

/-- What the handles of the engine mean. -/
def meaning : RowMeaning (List Piece) Nat where
  holds pieces items := ∀ entry ∈ items, ∃ piece, pieces[entry.1]? = some piece ∧ piece.Is entry.2
  value := value
  passes found := found = .boolean true
  shape := shape

section Pieces

variable {pieces : List Piece} {items : List (Nat × Item)} {handle : Nat}

/-- A piece that can be built stands for what it is, and all others for what they stood for. -/
theorem creates (node : Node) {arguments : List (EngineArgument Nat)} {item : Item} (piece : Piece)
    (built : build? pieces arguments = some piece) (is : piece.Is item)
    (held : meaning.holds pieces items) :
    meaning.Creates engine node arguments pieces item items := by
  refine ⟨pieces.length, pieces ++ [piece], ?_, ?_⟩
  · show (build? pieces arguments).elim _ _ = _
    rw [built]
    rfl
  · intro entry member
    rcases List.mem_cons.mp member with rfl | before
    · exact ⟨piece, List.getElem?_concat_length, is⟩
    · obtain ⟨other, there, isToo⟩ := held entry before
      have inside := (List.getElem?_eq_some_iff.mp there).1
      exact ⟨other, by rw [List.getElem?_append_left inside, there], isToo⟩

/-- The pieces that stand for an expression give its value. -/
theorem expression?_of_held {place : NodeId} (held : meaning.holds pieces items)
    (member : (handle, .expression place) ∈ items) :
    expression? pieces (.owned handle) = some (value place) := by
  obtain ⟨piece, there, rfl⟩ := held _ member
  rw [expression?, there]

/-- The pieces that stand for a relation give its rows. -/
theorem rows?_of_held {place : NodeId} {rows : List Row} (held : meaning.holds pieces items)
    (member : (handle, .relation place rows) ∈ items) : rows? pieces handle = some rows := by
  obtain ⟨piece, there, rfl⟩ := held _ member
  rw [rows?, there]

end Pieces

/-- The plan came about by the calls of clients. -/
theorem plan_built : plan.IsBuilt :=
  .adding _ _ (.adding _ _ (.adding _ _ (.adding _ _ (.adding _ _ (.adding _ _ .empty rfl) rfl) rfl)
    rfl) rfl) rfl

/-- All numbers in the plan are machine words. -/
theorem plan_fits : plan.Fits := by
  unfold Arena.Fits plan
  simp [Node.Fits, Operator.Fits, Expression.Fits, NodeId.Fits, nodesFit]

/-- The plan works row by row, from its root down to its scan. -/
theorem plan_isChain : plan.IsChain ⟨0⟩ ⟨5⟩ := by
  have column (source id : NodeId) (index : Nat)
      (found : plan.expression id = .ok (.column source index)) :
      plan.Spells source id (.column index) :=
    .leaf id _ _ found rfl
  refine .projection ⟨5⟩ ⟨3⟩ [⟨4⟩] rfl ?_ (.filter ⟨3⟩ ⟨0⟩ ⟨2⟩ rfl ?_ (.scan _ rfl rfl))
  · exact List.forall_mem_singleton.mpr ⟨_, column ⟨3⟩ ⟨4⟩ 1 rfl, rfl⟩
  · exact ⟨_, .unary ⟨2⟩ ⟨1⟩ .isNotNull _ rfl (column ⟨0⟩ ⟨1⟩ 0 rfl), rfl⟩

/-- The operators of the plan. -/
theorem operator_cases {id : NodeId} {node : Node} {operator : Operator}
    (found : plan.nodes[id.index]? = some node) (content : node.content = .operator operator) :
    (id = ⟨0⟩ ∧ operator = .partitionScan (.pending ⟨0⟩) 3) ∨ operator = .filter ⟨0⟩ ⟨2⟩ ∨
      operator = .projection ⟨3⟩ [⟨4⟩] := by
  obtain ⟨index⟩ := id
  rcases index with _ | _ | _ | _ | _ | _ | _ <;> cases found <;> cases content <;> simp

/-- The expressions of the plan. -/
theorem expression_cases {id : NodeId} {node : Node} {expression : Expression}
    (found : plan.nodes[id.index]? = some node) (content : node.content = .expression expression) :
    (id = ⟨1⟩ ∧ expression = .column ⟨0⟩ 0) ∨ (id = ⟨2⟩ ∧ expression = .unary ⟨1⟩ .isNotNull) ∨
      (id = ⟨4⟩ ∧ expression = .column ⟨3⟩ 1) := by
  obtain ⟨index⟩ := id
  rcases index with _ | _ | _ | _ | _ | _ | _ <;> cases found <;> cases content <;> simp

/-- The plan scans no other table. -/
theorem plan_scans (place : NodeId) (table : LazyTable) (scans : plan.ScansAt place table) :
    plan.Reaches ⟨5⟩ place := by
  obtain ⟨rows, found⟩ := (Arena.scansAt_iff table).mp scans
  obtain ⟨node, there, content⟩ := (Arena.operator_iff _).mp found
  rcases operator_cases there content with ⟨rfl, -⟩ | wrong | wrong
  · exact plan_isChain.isLine.reaches_scan
  · cases wrong
  · cases wrong

/-- The engine deals with the plan row by row, whatever tables are handed to it. -/
theorem works (handed : Batch → Prop) : meaning.WorksByRows engine plan ⟨5⟩ handed where
  reorder _ _ _ held same entry member := held entry (same.mem_iff.mpr member)
  scan id node operator table others state found content scans _ held := by
    rcases operator_cases found content with ⟨-, rfl⟩ | rfl | rfl
    · exact creates node _ rfl rfl held
    · cases scans
    · cases scans
  expression id node expression arguments taken others state found content _ presents held := by
    have kept : meaning.holds state others :=
      fun entry member => held entry (List.mem_append_right _ member)
    rw [Node.operands, content] at presents
    rcases expression_cases found content with ⟨rfl, rfl⟩ | ⟨rfl, rfl⟩ | ⟨rfl, rfl⟩
    · obtain ⟨handle, rfl⟩ := presents.of_source rfl [.index 0] rfl
      exact creates node (.expression fun row => row[0]?.getD .null) rfl rfl kept
    · cases presents with
      | expression _ handle _ _ _ rest =>
        obtain rfl := rest.of_plain [.text _] rfl
        refine creates node _ ?_ rfl kept
        rw [build?, expression?_of_held held List.mem_cons_self]
        rfl
      | plain _ _ _ _ _ same => cases same
    · obtain ⟨handle, rfl⟩ := presents.of_source rfl [.index 1] rfl
      exact creates node (.expression fun row => row[1]?.getD .null) rfl rfl kept
  step id node operator source step rows arguments taken others state found content steps presents
      listed held := by
    have kept : meaning.holds state others :=
      fun entry member => held entry (List.mem_append_right _ member)
    obtain ⟨given, member⟩ := listed
    have below := rows?_of_held held (List.mem_append_left _ member)
    rw [Node.operands, content] at presents
    rcases operator_cases found content with ⟨-, rfl⟩ | rfl | rfl
    · cases steps
    · obtain ⟨rfl, rfl⟩ := Prod.mk.inj (Option.some.inj steps)
      obtain ⟨rest, parts, rfl, rfl, further⟩ := presents.of_input rfl rfl member
      obtain ⟨handle, rfl, rfl⟩ := further.of_expression
      refine creates node _ ?_
        (congrArg Piece.relation (congrFun List.filterMap_eq_filter rows).symm) kept
      simp only [build?, below, expression?_of_held held (List.mem_cons_of_mem _ List.mem_cons_self)]
      rfl
    · obtain ⟨rfl, rfl⟩ := Prod.mk.inj (Option.some.inj steps)
      obtain ⟨rest, parts, rfl, rfl, further⟩ := presents.of_input rfl rfl member
      obtain ⟨given, rfl, listed⟩ := further.of_list
      obtain ⟨handle, rfl, rfl⟩ := listed.of_expression
      refine creates node _ ?_
        (congrArg Piece.relation (congrFun List.filterMap_eq_map' rows).symm) kept
      simp only [build?, below, List.mapM_cons,
        expression?_of_held held (List.mem_cons_of_mem _ List.mem_cons_self)]
      rfl
  optimize handle rows state held := ⟨handle, state, rfl, held⟩
  execute handle rows output state _ held := by
    refine ⟨state, ?_⟩
    show (rows? state handle).elim _ _ = _
    rw [rows?_of_held held List.mem_cons_self]
    rfl

/-- Workers that keep tables and run plans. -/
def registry : Registry where
  bodies := [(Body.scatterName, .scatter), (executePlanName, .executePlan engine [])]

/-- The table that the plan scans. -/
def table : Batch :=
  ⟨⟨[⟨"a", .int64, true⟩, ⟨"b", .int64, true⟩]⟩,
    [[.int64 1, .null, .int64 3], [.int64 10, .int64 20, .int64 30]], 3⟩

/-- The coordinator keeps the table. It starts groups of two workers, and none has been started. -/
def office : Office where
  world := {
    spawners := [{ options := { workers := some 2 } }], tables := [{ frame := .collected table }] }
  traffic := Exchange.nobody registry
  deposits := []

/-- The office is one in which nothing has happened yet. -/
theorem office_isOpening : office.IsOpening ⟨0⟩ where
  sound := Exchange.nobody_isSound registry
  keeps := ⟨rfl, Nat.succ_pos _⟩
  idle := ⟨_, rfl, rfl, rfl, rfl⟩
  nothing := rfl

/-- The groups of the office have two workers. -/
theorem office_musters : SpawnerId.Musters ⟨0⟩ office.world 2 where
  live _ wrong := by cases wrong
  idle spawner found _ := by
    obtain rfl := Option.some.inj found
    rfl

/-- The workers are supplied with the blocks of the table. -/
theorem office_provides :
    office.world.Provides ⟨0⟩ office.deposits 2 ⟨0⟩ table (table.block 2) :=
  .collected _ table rfl rfl fun _ wrong => by cases wrong

/-- The executor. -/
def executor : Executor (List Piece) := { state := [], spawner := some ⟨0⟩ }

end Filtering

namespace Office

/-- The rows of the table that have a first value are found on two workers as in one process. -/
theorem filtered_agrees : ∃ batch,
    Filtering.office.Always
      (Prod.fst <$> (Executing.executeLocally Filtering.engine Filtering.plan ⟨5⟩).run.run
        Filtering.executor) (.ok batch) ∧
    Filtering.office.Always
      (Prod.fst <$> (Executing.executeAndFetch Filtering.plan ⟨5⟩).run.run Filtering.executor)
      (.ok batch) :=
  rows_agree Filtering.office_isOpening.inOrder ⟨rfl, Nat.succ_pos _⟩ Filtering.executor rfl
    Filtering.office_musters Filtering.plan_built Filtering.plan_fits (by decide : 5 < 2 ^ 64)
    Filtering.plan_isChain Filtering.plan_scans rfl (.kept ⟨0⟩ 3 _ _ Filtering.office_provides)
    (Filtering.works _) (List.forall_mem_nil _) (List.forall_mem_nil _)

end Office

end Rankwise

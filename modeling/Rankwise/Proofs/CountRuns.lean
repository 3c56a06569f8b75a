import Rankwise.Proofs.Agreement
import Rankwise.Proofs.CountPlans

/-!
# Runs that count

The number of rows of a plan is known if it follows from the plan alone, or if the engine knows it
of a plan that scans no tables on the workers (`Executing.knownRows_static`,
`Executing.knownRows_lazy`, `Executing.knownRows_held`). Otherwise a plan that counts is added and
run, on the workers (`Executing.runCount_onWorkers`) or in one process
(`Executing.runCount_locally`), and the counts that it gives are added up
(`Executing.countIn_runs`).

For the engine to know something, the plan is converted where no table has to be asked for
(`Site.inProcess`).
-/

namespace Rankwise

variable {ε η : Type}

/-- What is built in a plan that has grown is built in the plan before. -/
theorem RowMeaning.Builds.of_extends {meaning : RowMeaning ε η} {practice : Practice}
    {engine : Engine ε η} {arena later : Arena} {handed : Batch → Prop}
    (builds : meaning.Builds practice engine later handed) (further : later.Extends arena) :
    meaning.Builds practice engine arena handed where
  reorder := builds.reorder
  scan id node operator table others state found :=
    builds.scan id node operator table others state (further.found found)
  expression id node expression arguments taken others state found :=
    builds.expression id node expression arguments taken others state (further.found found)
  change id node operator source change rows arguments taken others state found :=
    builds.change id node operator source change rows arguments taken others state (further.found found)

namespace Site

/-- The coordinator where no table has to be asked for: nothing changes but the state of the engine.
-/
def inProcess (engine : Engine ε η) (executor : Executor ε) (world : World) (fleet : Fleet) :
    Site ε η (StateT (Executor ε) (StateT World Dialogue)) ε where
  comes action state value last :=
    Acts (action.run { executor with state }) world fleet (value, { executor with state := last }) world
      fleet
  pure _ _ := rfl
  bind first second := by
    rw [StateT.run_bind]
    exact Acts.bind first second
  resolver := Executing.localResolver
  create name output arguments := (Executing.engine (engine.create name output arguments).stopping).run
  engine state := state
  begun _ := True

/-- A table that the plan holds is at hand. -/
theorem inProcess_hosts (engine : Engine ε η) (executor : Executor ε) (world : World) (fleet : Fleet)
    (table : Batch) :
    (inProcess engine executor world fleet).Hosts engine (.tableScan table) table where
  creates _ _ _ _ _ after ran := by
    exact ⟨after, Runs.engine (EngineAction.stopping_run ran) world fleet, rfl, id⟩
  hands state action _ asked := by
    obtain rfl := Option.some.inj asked
    exact ⟨state, rfl, rfl⟩

end Site

/-! The number that the plan that counts gives. -/

/-- Numbers of things that are machine words are read back. -/
theorem Scalar.count?_ofCount {count : Nat} (fits : count < 2 ^ 64) :
    (ofCount count).count? = some count := by
  show some (UInt64.ofNat count).toNat = some count
  rw [UInt64.toNat_ofNat_of_lt' fits]

namespace Executing

/-- Adds a further number to what the plan that counts has given. -/
def addCount (sum : Nat) (value : Scalar) : Except Failure Nat :=
  match value.count? with
  | some count => .ok (sum + count)
  | none => .error (notCount value)

/-- The total is a fold with a step of its own for each count. -/
theorem total_eq (counts : List Scalar) : total counts = counts.foldlM addCount 0 := rfl

/-- Counts that are machine words are added up. -/
theorem total_counts (counts : List Nat) (fit : ∀ count ∈ counts, count < 2 ^ 64) :
    total (counts.map Scalar.ofCount) = .ok counts.sum := by
  have further (before : Nat) : (counts.map Scalar.ofCount).foldlM addCount before =
      .ok (before + counts.sum) := by
    induction counts generalizing before with
    | nil => rfl
    | cons count rest inductionHypothesis =>
      obtain ⟨here, others⟩ := List.forall_mem_cons.mp fit
      rw [List.map_cons, List.foldlM_cons, addCount, Scalar.count?_ofCount here, List.sum_cons,
        ← Nat.add_assoc]
      exact inductionHypothesis others (before + count)
  rw [total_eq, further, Nat.zero_add]

/-- What is read from a table that has one count in each row. -/
def countIn (table : Batch) : Executing ε Nat :=
  match table.column? 0 with
  | some counts => ofExcept (total counts)
  | none => ofExcept (.error noCounts)

variable {executor between after : Executor ε} {world later middle : World} {fleet last : Fleet}

/-- The counts in a table of counts are added up. -/
theorem countIn_runs (counts : List Nat) (fit : ∀ count ∈ counts, count < 2 ^ 64) :
    Runs (countIn (.ofRows { fields := [countField] } (counts.map fun count => [.ofCount count])))
      executor world fleet (.ok counts.sum) executor world fleet := by
  have column : (Batch.ofRows { fields := [countField] } (counts.map fun count =>
      [Scalar.ofCount count])).column? 0 = some (counts.map Scalar.ofCount) := by
    simp [Batch.column?, Batch.ofRows, Schema.size]
  rw [countIn, column]
  exact (Runs.ofExcept_iff _ _).mpr ⟨total_counts counts fit, rfl, rfl, rfl⟩

/-- Runs a plan that counts. -/
def runCount (engine : Engine ε η) (arena : Arena) (counting : NodeId) : Executing ε Nat := do
  let onWorkers ← (do
    if (← get).spawner.isSome then ofExcept (arena.hasScan counting) else return false :
    Executing ε Bool)
  let table ← if onWorkers then fetch (← executeOnWorkers arena counting)
    else table (← execute engine arena counting)
  countIn table

/-- A number that is known without running the plan is what counting gives. -/
theorem count_known {engine : Engine ε η} {arena : Arena} {root : NodeId} {rows : Nat}
    (knows : Runs (knownRows engine arena root) executor world fleet (.ok (some rows)) after later
      last) :
    Acts ((count engine root arena).run executor) world fleet ((.ok rows, arena), after) later last := by
  rw [count, StateT.run_bind]
  exact Acts.bind knows rfl

/-- If no number is known, the plan that counts is added and run. -/
theorem count_unknown {engine : Engine ε η} {arena grown : Arena} {root counting : NodeId}
    {answer : Except Stop Nat} {between : Fleet} {halfway : Executor ε}
    (knows : Runs (knownRows engine arena root) executor world fleet (.ok none) halfway middle between)
    (made : Building.Makes (Building.countPlan root) arena counting grown)
    (counted : Runs (runCount engine grown counting) halfway middle between answer after later last) :
    Acts ((count engine root arena).run executor) world fleet ((answer, grown), after) later last := by
  have built : (Building.countPlan root).run.run arena = (.ok counting, grown) := made
  rw [count, StateT.run_bind]
  refine Acts.bind knows ?_
  dsimp only
  rw [built]
  have returned : Acts ((runCount engine grown counting).run.run halfway >>= fun ended =>
      pure ((ended.1, grown), ended.2)) middle between ((answer, grown), after) later last :=
    Acts.bind counted (Acts.pure _ _ _)
  exact returned

/-! What is known without running the plan. -/

variable {engine : Engine ε η} {arena : Arena} {root : NodeId}

/-- What follows from the plan alone about its rows is found. -/
theorem static_runs {known : Option Nat} (follows : arena.staticRows root = .ok known) :
    Runs (ExceptT.mk (pure (arena.staticRows root)) : Executing ε (Option Nat)) executor world fleet
      (.ok known) executor world fleet := by
  rw [follows]
  rfl

/-- Whether the plan scans tables on the workers is found. -/
theorem hasScan_runs {scans : Bool} (found : arena.hasScan root = .ok scans) :
    Runs (ofExcept (arena.hasScan root)) executor world fleet (.ok scans) executor world fleet :=
  (Runs.ofExcept_iff _ _).mpr ⟨found, rfl, rfl, rfl⟩

/-- A number that follows from the plan alone is known. -/
theorem knownRows_static {rows : Nat} (follows : arena.staticRows root = .ok (some rows)) :
    Runs (knownRows engine arena root) executor world fleet (.ok (some rows)) executor world fleet :=
  (static_runs follows).bind rfl

/-- Of a plan that scans tables on the workers nothing else is known. -/
theorem knownRows_lazy (follows : arena.staticRows root = .ok none)
    (scans : arena.hasScan root = .ok true) :
    Runs (knownRows engine arena root) executor world fleet (.ok none) executor world fleet :=
  (static_runs follows).bind ((hasScan_runs scans).bind rfl)

/-- Of any other plan what the engine knows is known. -/
theorem knownRows_held (follows : arena.staticRows root = .ok none)
    (scans : arena.hasScan root = .ok false) {handle : η}
    (converts : Runs (convert engine arena localResolver root) executor world fleet (.ok handle) after
      later last) :
    Runs (knownRows engine arena root) executor world fleet (.ok (engine.rows handle after.state)) after
      later last :=
  (static_runs follows).bind ((hasScan_runs scans).bind (converts.bind rfl))

/-! Running the plan that counts. -/

variable {counting : NodeId} {frame : Frame} {table : Batch} {count : Nat} {scans : Bool}
  {halfway : Executor ε} {between : World} {resting : Fleet}

/-- To look at the executor changes nothing. -/
theorem get_runs (executor : Executor ε) (world : World) (fleet : Fleet) :
    Runs (get : Executing ε (Executor ε)) executor world fleet (.ok executor) executor world fleet := rfl

/-- Whether there are workers, and tables on them, so that the counting is to be done there. -/
theorem asksWorkers_runs (found : arena.hasScan counting = .ok scans) :
    Runs (do if (← get).spawner.isSome then ofExcept (arena.hasScan counting) else return false :
      Executing ε Bool) executor world fleet (.ok (executor.spawner.isSome && scans)) executor world
        fleet := by
  refine (get_runs executor world fleet).bind ?_
  cases executor.spawner.isSome with
  | true => exact hasScan_runs found
  | false => rfl

/-- Where the plan that counts belongs onto the workers, it is run there, fetched and added up. -/
theorem runCount_onWorkers (found : arena.hasScan counting = .ok scans)
    (places : (executor.settings.runParallel || executor.spawner.isSome && scans) = true)
    (runs : Runs (executeOnWorkers arena counting) executor world fleet (.ok frame) halfway between
      resting)
    (fetched : Runs (fetch frame) halfway between resting (.ok table) after later last)
    (counted : Runs (countIn table) after later last (.ok count) after later last) :
    Runs (runCount engine arena counting) executor world fleet (.ok count) after later last := by
  refine (asksWorkers_runs found).bind ?_
  cases asked : executor.spawner.isSome && scans with
  | true => exact runs.bind (fetched.bind counted)
  | false =>
    rw [asked, Bool.or_false] at places
    have executes : Runs (execute engine arena counting) executor world fleet
        (.ok (.distributed frame)) halfway between resting := by
      refine (get_runs executor world fleet).bind ?_
      rw [if_pos places]
      exact runs.bind rfl
    exact executes.bind (Runs.bind fetched counted)

/-- Where the plan that counts belongs into this process, it is run here and added up. -/
theorem runCount_locally (found : arena.hasScan counting = .ok scans)
    (places : (executor.settings.runParallel || executor.spawner.isSome && scans) = false)
    (runs : Runs (executeLocally engine arena counting) executor world fleet (.ok table) after later
      last)
    (counted : Runs (countIn table) after later last (.ok count) after later last) :
    Runs (runCount engine arena counting) executor world fleet (.ok count) after later last := by
  obtain ⟨alone, asked⟩ := Bool.or_eq_false_iff.mp places
  refine (asksWorkers_runs found).bind ?_
  rw [asked]
  have executes : Runs (execute engine arena counting) executor world fleet (.ok (.local table)) after
      later last := by
    refine (get_runs executor world fleet).bind ?_
    rw [if_neg (Bool.eq_false_iff.mp alone)]
    exact runs.bind rfl
  have tabled : Runs (Executing.table (.local table)) after later last (.ok table) after later last :=
    rfl
  exact executes.bind (tabled.bind counted)

end Executing

/-- The table of a result on the ranks is fetched, and the result is given up. -/
theorem SpawnerId.Placed.fetched {id : SpawnerId} {size : Nat} {partition : Nat → Batch}
    {deposits : List Deposit} {deposit : Deposit} {world : World} {spawner : Spawner} {fleet : Fleet}
    (placed : id.Placed size partition deposits deposit world spawner fleet) (executor : Executor ε)
    (partitioned : Partitioned) {table : Batch}
    (joins : Group.joinPartitions ((List.range size).map partition) = .ok table) :
    ∃ later last, Runs (Executing.fetch (.distributed partitioned deposit.handle)) executor world fleet
      (.ok table) executor later last := by
  obtain ⟨between, halfway, middle, gathered, kept⟩ := placed.fetches joins
  obtain ⟨later, after, last, released, -⟩ := kept.release deposit placed.isThere.member
  have gives : Acts (do
      let table ← (Frame.distributed partitioned deposit.handle).table.run
      (Frame.distributed partitioned deposit.handle).release
      return table : Acting (Except Stop Batch)) world fleet (.ok table) later last :=
    Acts.bind gathered (Acts.bind released (Acts.pure _ _ _))
  exact ⟨later, last, (Runs.coordinate_iff _ _).mpr ⟨gives, rfl⟩⟩

end Rankwise

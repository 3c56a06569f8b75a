import Rankwise.Plan.Execution
import Rankwise.Proofs.Settling

/-!
# Runs of plans

What comes of running a plan where no connection fails and every worker goes on at once (`Runs`). A
run on the workers is taken apart into its steps: the plan is shown if that is asked for, the tables
that it scans are put onto the workers, the plan is written, and the ranks are called
(`runs_onWorkers_iff`).
-/

namespace Rankwise

variable {ε η α β : Type}

/-- With workers that act at once, running plans comes to this answer, and leaves this behind. -/
def Runs (executing : Executing ε α) (executor : Executor ε) (world : World) (fleet : Fleet)
    (answer : Except Stop α) (after : Executor ε) (later : World) (last : Fleet) : Prop :=
  Acts (executing.run.run executor) world fleet (answer, after) later last

namespace Runs

variable {executor after : Executor ε} {world later : World} {fleet last : Fleet}

/-- A run comes to one end only. -/
theorem unique {executing : Executing ε α} {answer other : Except Stop α}
    {afterToo : Executor ε} {laterToo : World} {lastToo : Fleet}
    (runs : Runs executing executor world fleet answer after later last)
    (runsToo : Runs executing executor world fleet other afterToo laterToo lastToo) :
    answer = other ∧ after = afterToo ∧ later = laterToo ∧ last = lastToo := by
  obtain ⟨both, rfl, rfl⟩ := Acts.unique runs runsToo
  obtain ⟨rfl, rfl⟩ := Prod.mk.inj both
  exact ⟨rfl, rfl, rfl, rfl⟩

/-- The second of two steps starts where the first has ended, unless the first has failed. -/
theorem run_bind (first : Executing ε α) (next : α → Executing ε β) (executor : Executor ε)
    (world : World) :
    ((first >>= next).run.run executor).run world =
      ((first.run.run executor).run world).bind fun
        | ((.ok value, between), later) => ((next value).run.run between).run later
        | ((.error stop, between), later) => .done ((.error stop, between), later) := by
  refine congrArg (Dialogue.bind ((first.run.run executor).run world))
    (funext fun ((answer, between), later) => ?_)
  cases answer with
  | ok value => rfl
  | error stop => rfl

/-- What is composed goes well exactly if both parts do. -/
theorem bind_iff (first : Executing ε α) (next : α → Executing ε β) (value : β) :
    Runs (first >>= next) executor world fleet (.ok value) after later last ↔
      ∃ result halfway between middle,
        Runs first executor world fleet (.ok result) halfway between middle ∧
        Runs (next result) halfway between middle (.ok value) after later last := by
  unfold Runs Acts
  rw [run_bind, Dialogue.run_bind]
  constructor
  · intro runs
    obtain ⟨⟨⟨⟨answer, halfway⟩, between⟩, middle⟩, begun, continued⟩ :=
      Option.bind_eq_some_iff.mp runs
    cases answer with
    | error stop =>
      obtain ⟨same, -⟩ := Prod.mk.inj (Option.some.inj continued)
      obtain ⟨both, -⟩ := Prod.mk.inj same
      obtain ⟨wrong, -⟩ := Prod.mk.inj both
      cases wrong
    | ok result => exact ⟨result, halfway, between, middle, begun, continued⟩
  · rintro ⟨result, halfway, between, middle, begun, continued⟩
    rw [begun]
    exact continued

/-- To run what the coordinator does is to act as the coordinator and to leave the executor as it
is. -/
theorem coordinate_iff (acting : Coordinating α) (answer : Except Stop α) :
    Runs (Executing.coordinate acting) executor world fleet answer after later last ↔
      Acts acting.run world fleet answer later last ∧ executor = after := by
  have whole := Dialogue.run_bind Fleet.outside (acting.run.run world)
    (fun (answer, later) => .done ((answer, executor), later)) fleet
  constructor
  · intro runs
    obtain ⟨⟨⟨found, between⟩, middle⟩, ended, same⟩ :=
      Option.bind_eq_some_iff.mp (whole.symm.trans runs)
    have ends : some (((found, executor), between), middle) =
      some (((answer, after), later), last) := same
    cases ends
    exact ⟨ended, rfl⟩
  · rintro ⟨acts, rfl⟩
    rw [acts] at whole
    exact whole

/-- To take over a result goes well exactly for a value, and changes nothing. -/
theorem ofExcept_iff (result : Except Failure α) (value : α) :
    Runs (Executing.ofExcept result) executor world fleet (.ok value) after later last ↔
      result = .ok value ∧ executor = after ∧ world = later ∧ fleet = last := by
  constructor
  · intro runs
    cases result with
    | error failure =>
      have ends : some ((((.error (.failed failure) : Except Stop α), executor), world), fleet) =
        some (((.ok value, after), later), last) := runs
      cases ends
    | ok found =>
      have ends : some ((((.ok found : Except Stop α), executor), world), fleet) =
        some (((.ok value, after), later), last) := runs
      cases ends
      exact ⟨rfl, rfl, rfl, rfl⟩
  · rintro ⟨rfl, rfl, rfl, rfl⟩
    rfl

end Runs

/-- In some order of the steps of the coordinator and its workers, running plans gives this value
and leaves this behind, once all workers have come to rest. -/
def Gives (executing : Executing ε α) (executor : Executor ε) (world : World) (traffic : Traffic)
    (value : α) (after : Executor ε) (later : World) (fleet : Fleet) : Prop :=
  ∃ last, Traffic.Reaches (traffic, (executing.run.run executor).run world)
    (last, .done ((.ok value, after), later)) ∧ last.settled = fleet

/-- What can be given is given with workers that act at once, whatever the order of the steps. -/
theorem gives_iff (executing : Executing ε α) (executor after : Executor ε) (world later : World)
    (traffic : Traffic) (sound : traffic.IsSound) (value : α) (fleet : Fleet) :
    Gives executing executor world traffic value after later fleet ↔
      Runs executing executor world traffic.settled (.ok value) after later fleet := by
  constructor
  · rintro ⟨last, reached, rfl⟩
    exact (Traffic.run_reached _ _ sound reached).2.symm
  · intro runs
    exact Traffic.end_reached (traffic, (executing.run.run executor).run world) _ fleet sound runs

namespace Arena

/-- The plan can be shown if the settings ask for it. -/
def Shows (arena : Arena) (root : NodeId) (settings : Settings) (names : LazyNames) : Prop :=
  settings.dumpPlans = true → ∃ text, arena.display names root = .ok text

end Arena

/-- One plan more was run. -/
def Executor.counted (executor : Executor ε) : Executor ε :=
  { executor with executedPlans := executor.executedPlans + 1 }

/-- The computation that runs a plan on the ranks. -/
def planComputation : Computation := { name := executePlanName, parameters := ["plan"] }

/-- The arguments with which a written plan is sent. -/
def planArguments (payload : Json) : CallArguments := { positional := [.value (.json payload)] }

namespace Executing

variable {executor after : Executor ε} {world later : World} {fleet last : Fleet}

/-- A plan is shown exactly if the settings ask for it. -/
theorem display_cases (arena : Arena) (root : NodeId) (executor : Executor ε) (world : World) :
    ((display arena root).run.run executor).run world =
      ((if executor.settings.dumpPlans then do
          let world ← (get : Acting World)
          let _ ← ExceptT.mk (pure (arena.display world.names root))
        else return : Executing ε Unit).run.run executor).run world := rfl

/-- What is shown does not matter once it can be shown. -/
theorem run_shown (shown : LazyNames → Except Stop String) (executor : Executor ε) (world : World) :
    ((do
        let world ← (get : Acting World)
        let _ ← ExceptT.mk (pure (shown world.names)) : Executing ε Unit).run.run executor).run world =
      .done (((shown world.names).map fun _ => (), executor), world) := by
  show ((do let _ ← ExceptT.mk (pure (shown world.names)) : Executing ε Unit).run.run executor).run
    world = _
  cases shown world.names with
  | ok text => rfl
  | error stop => rfl

/-- A plan that is to be shown is shown, or why it cannot be is the failure. -/
theorem display_asked (arena : Arena) (root : NodeId) (executor : Executor ε) (world : World)
    (asked : executor.settings.dumpPlans = true) :
    ((display arena root).run.run executor).run world =
      .done (((arena.display world.names root).map fun _ => (), executor), world) := by
  rw [display_cases, if_pos asked]
  exact run_shown (fun names => arena.display names root) executor world

/-- A plan that is not to be shown is not looked at. -/
theorem display_unasked (arena : Arena) (root : NodeId) (executor : Executor ε) (world : World)
    (unasked : executor.settings.dumpPlans = false) :
    ((display arena root).run.run executor).run world = .done ((.ok (), executor), world) := by
  rw [display_cases, if_neg (Bool.eq_false_iff.mp unasked)]
  rfl

/-- Showing a plan goes well exactly if the plan can be shown, and changes nothing. -/
theorem display_iff (arena : Arena) (root : NodeId) :
    Runs (display arena root) executor world fleet (.ok ()) after later last ↔
      arena.Shows root executor.settings world.names ∧
        executor = after ∧ world = later ∧ fleet = last := by
  unfold Runs Acts
  cases asked : executor.settings.dumpPlans with
  | false =>
    rw [display_unasked arena root executor world asked, Arena.Shows, asked]
    constructor
    · intro ends
      cases ends
      refine ⟨?_, rfl, rfl, rfl⟩
      intro wrong
      cases wrong
    · rintro ⟨-, rfl, rfl, rfl⟩
      rfl
  | true =>
    rw [display_asked arena root executor world asked, Arena.Shows, asked]
    cases arena.display world.names root with
    | error stop =>
      constructor
      · intro ends
        cases ends
      · rintro ⟨shows, -⟩
        obtain ⟨text, wrong⟩ := shows rfl
        cases wrong
    | ok text =>
      constructor
      · intro ends
        cases ends
        exact ⟨fun _ => ⟨text, rfl⟩, rfl, rfl, rfl⟩
      · rintro ⟨-, rfl, rfl, rfl⟩
        rfl

/-- To note that a plan was run counts it. -/
theorem noteExecuted_runs (value : α) :
    Runs (noteExecuted >>= fun _ => return value : Executing ε α) executor world fleet (.ok value)
      executor.counted world fleet := rfl

/-- Calls the ranks with a written plan. -/
def callPlan (spawner : SpawnerId) (payload : Json) : Executing ε Frame := do
  let (_, answer) ← coordinate (spawner.submit planComputation (planArguments payload))
  let answer ← ofExcept answer
  let frame ← coordinate answer.toFrame
  noteExecuted
  return frame

/-- Writes a plan and calls the ranks with it. -/
def sendPlan (arena : Arena) (root : NodeId) (spawner : SpawnerId) : Executing ε Frame := do
  let world ← (get : Acting World)
  let some payload := RootedPlan.encode? world.names { arena, root } | ofExcept (.error notWritable)
  callPlan spawner payload.sorted

/-- A plan is run on the workers by showing it, putting its tables there and sending it, if there
are workers. -/
theorem onWorkers_cases (arena : Arena) (root : NodeId) (executor : Executor ε) :
    (executeOnWorkers arena root).run.run executor =
      (match executor.spawner with
      | some spawner => do
        display arena root
        let _ ← coordinate (settleScans arena root spawner)
        sendPlan arena root spawner
      | _ => ofExcept (.error noSpawner) : Executing ε Frame).run.run executor := rfl

/-- A plan is sent if all its tables have names on the workers. -/
theorem sendPlan_cases (arena : Arena) (root : NodeId) (spawner : SpawnerId) (executor : Executor ε)
    (world : World) :
    ((sendPlan arena root spawner).run.run executor).run world =
      ((match RootedPlan.encode? world.names { arena, root } with
      | some payload => callPlan spawner payload.sorted
      | _ => ofExcept (.error notWritable) : Executing ε Frame).run.run executor).run world := rfl

/-- To call the computation that runs a plan goes well exactly if the call gives a frame; then the
plan is counted. -/
theorem callPlan_iff (spawner : SpawnerId) (payload : Json) (frame : Frame) :
    Runs (callPlan spawner payload) executor world fleet (.ok frame) after later last ↔
      Acts (spawner.callFrame planComputation (planArguments payload)).run world fleet (.ok frame)
        later last ∧ after = executor.counted := by
  unfold callPlan
  constructor
  · intro runs
    obtain ⟨⟨left, answer⟩, _, between, middle, first, runs⟩ := (Runs.bind_iff _ _ _).mp runs
    obtain ⟨submitted, rfl⟩ := (Runs.coordinate_iff _ _).mp first
    obtain ⟨given, _, _, _, second, runs⟩ := (Runs.bind_iff _ _ _).mp runs
    obtain ⟨rfl, rfl, rfl, rfl⟩ := (Runs.ofExcept_iff _ _).mp second
    obtain ⟨found, _, _, _, third, runs⟩ := (Runs.bind_iff _ _ _).mp runs
    obtain ⟨found, rfl⟩ := (Runs.coordinate_iff _ _).mp third
    obtain ⟨same, rfl, rfl, rfl⟩ := Runs.unique runs (noteExecuted_runs _)
    obtain rfl := Except.ok.inj same
    exact ⟨Acts.bindOk submitted found, rfl⟩
  · rintro ⟨called, rfl⟩
    obtain ⟨⟨left, answer⟩, between, middle, submitted, further⟩ := SpawnerId.acts_first called
    obtain ⟨given, _, _, fine, found⟩ := SpawnerId.acts_first further
    obtain rfl := SpawnerId.acts_ofExcept fine
    obtain ⟨-, rfl, rfl⟩ := Acts.unique fine rfl
    refine (Runs.bind_iff _ _ _).mpr ⟨_, _, _, _, (Runs.coordinate_iff _ _).mpr ⟨submitted, rfl⟩, ?_⟩
    refine (Runs.bind_iff _ _ _).mpr ⟨_, _, _, _, (Runs.ofExcept_iff _ _).mpr ⟨rfl, rfl, rfl, rfl⟩, ?_⟩
    refine (Runs.bind_iff _ _ _).mpr ⟨_, _, _, _, (Runs.coordinate_iff _ _).mpr ⟨found, rfl⟩, ?_⟩
    exact noteExecuted_runs frame

/-- A plan is sent exactly if it can be written and the call with it goes well. -/
theorem sendPlan_iff (arena : Arena) (root : NodeId) (spawner : SpawnerId) (frame : Frame) :
    Runs (sendPlan arena root spawner) executor world fleet (.ok frame) after later last ↔
      ∃ payload, RootedPlan.encode? world.names { arena, root } = some payload ∧
        Acts (spawner.callFrame planComputation (planArguments payload.sorted)).run world fleet
          (.ok frame) later last ∧
        after = executor.counted := by
  unfold Runs Acts
  rw [sendPlan_cases]
  cases RootedPlan.encode? world.names { arena, root } with
  | none =>
    constructor
    · intro runs
      obtain ⟨wrong, -⟩ := (Runs.ofExcept_iff _ _).mp runs
      cases wrong
    · rintro ⟨payload, wrong, -⟩
      cases wrong
  | some payload =>
    constructor
    · intro runs
      obtain ⟨called, counted⟩ := (callPlan_iff spawner payload.sorted frame).mp runs
      exact ⟨payload, rfl, called, counted⟩
    · rintro ⟨_, same, called, counted⟩
      obtain rfl := Option.some.inj same
      exact (callPlan_iff spawner payload.sorted frame).mpr ⟨called, counted⟩

/-- A run on the workers goes well exactly if all of its steps do. -/
theorem onWorkers_iff (arena : Arena) (root : NodeId) (frame : Frame) :
    Runs (executeOnWorkers arena root) executor world fleet (.ok frame) after later last ↔
      ∃ spawner, executor.spawner = some spawner ∧
        arena.Shows root executor.settings world.names ∧
        ∃ count between middle payload,
          Acts (settleScans arena root spawner).run world fleet (.ok count) between middle ∧
          RootedPlan.encode? between.names { arena, root } = some payload ∧
          Acts (spawner.callFrame planComputation (planArguments payload.sorted)).run between middle
            (.ok frame) later last ∧
          after = executor.counted := by
  unfold Runs
  rw [onWorkers_cases]
  cases executor.spawner with
  | none =>
    constructor
    · intro runs
      obtain ⟨wrong, -⟩ := (Runs.ofExcept_iff _ _).mp runs
      cases wrong
    · rintro ⟨spawner, wrong, -⟩
      cases wrong
  | some spawner =>
    constructor
    · intro runs
      obtain ⟨_, _, _, _, first, runs⟩ := (Runs.bind_iff _ _ _).mp runs
      obtain ⟨shows, rfl, rfl, rfl⟩ := (display_iff arena root).mp first
      obtain ⟨count, _, between, middle, second, runs⟩ := (Runs.bind_iff _ _ _).mp runs
      obtain ⟨settled, rfl⟩ := (Runs.coordinate_iff _ _).mp second
      obtain ⟨payload, written, called, counted⟩ := (sendPlan_iff arena root spawner frame).mp runs
      exact ⟨spawner, rfl, shows, count, between, middle, payload, settled, written, called, counted⟩
    · rintro ⟨_, same, shows, count, between, middle, payload, settled, written, called, counted⟩
      obtain rfl := Option.some.inj same
      refine (Runs.bind_iff _ _ _).mpr ⟨(), executor, world, fleet, ?_, ?_⟩
      · exact (display_iff arena root).mpr ⟨shows, rfl, rfl, rfl⟩
      refine (Runs.bind_iff _ _ _).mpr ⟨count, executor, between, middle, ?_, ?_⟩
      · exact (Runs.coordinate_iff _ _).mpr ⟨settled, rfl⟩
      exact (sendPlan_iff arena root spawner frame).mpr ⟨payload, written, called, counted⟩

end Executing

end Rankwise

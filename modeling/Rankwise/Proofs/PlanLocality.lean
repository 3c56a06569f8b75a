import Rankwise.Proofs.PlanRuns

/-!
# What a run on the workers depends on

Only the part of a plan that its root refers to is run, but the whole plan is sent. So two plans
that agree below the root give the same wherever both can be sent, and a scan that has nothing to do
with the root keeps a plan from being sent if its table has no name on the workers. The main
statement (`Executing.onWorkers_alike`) says this of every run.
-/

namespace Rankwise

variable {ε η α : Type}

namespace Executing

variable {id : SpawnerId} {executor after : Executor ε} {world later : World} {fleet last : Fleet}
  {arena other : Arena} {root : NodeId}

/-- To put several tables onto the workers leaves coordinator and workers in order. -/
theorem settleAll_inOrder (found : List (NodeId × LazyTable)) (before : id.InOrder world fleet)
    (acts : Acts (found.forM fun entry => do let _ ← entry.2.settle id : Coordinating Unit).run world
      fleet (.ok ()) later last) :
    id.InOrder later last ∧ last.registry = fleet.registry := by
  induction found generalizing world fleet with
  | nil =>
    obtain ⟨-, rfl, rfl⟩ := Acts.unique acts rfl
    exact ⟨before, rfl⟩
  | cons entry rest inductionHypothesis =>
    obtain ⟨_, between, middle, first, further⟩ := SpawnerId.acts_first acts
    obtain ⟨name, _, _, settled, done⟩ := SpawnerId.acts_first first
    obtain ⟨-, rfl, rfl⟩ := Acts.unique done rfl
    obtain ⟨after, registered⟩ := LazyTable.settle_inOrder entry.2 before name settled
    obtain ⟨last, registeredThen⟩ := inductionHypothesis after further
    exact ⟨last, registeredThen.trans registered⟩

/-- A spawner is still in order when all tables of a plan were put onto the workers. -/
theorem settleScans_inOrder (before : id.InOrder world fleet) (count : Nat)
    (acts : Acts (settleScans arena root id).run world fleet (.ok count) later last) :
    id.InOrder later last ∧ last.registry = fleet.registry := by
  obtain ⟨_, between, middle, settled, further⟩ := SpawnerId.acts_first acts
  obtain ⟨_, _, _, fine, done⟩ := SpawnerId.acts_first further
  have found := SpawnerId.acts_ofExcept fine
  rw [found] at fine
  obtain ⟨-, rfl, rfl⟩ := Acts.unique fine rfl
  obtain ⟨-, rfl, rfl⟩ := Acts.unique done rfl
  exact settleAll_inOrder _ before settled

/-- Of two plans that agree below the root, let one be run on the workers and give a frame. Then the
other one gives the same or nothing: it does so exactly if all tables that it scans anywhere have
names by then, and it can be shown if that is asked for. -/
theorem runs_alike (engine : Engine ε η) (fresh : ε) (agrees : arena.Agrees other root)
    (fits : arena.Fits) (fitsToo : other.Fits) (rooted : root.Fits)
    (commands : executor.spawner = some id) (before : id.InOrder world fleet)
    (registered : fleet.registry.RunsPlans engine fresh) (frame : Frame)
    (runs : Runs (executeOnWorkers arena root) executor world fleet (.ok frame) after later last)
    (another : Frame) (afterToo : Executor ε) (laterToo : World) (lastToo : Fleet) :
    Runs (executeOnWorkers other root) executor world fleet (.ok another) afterToo laterToo lastToo ↔
      (another = frame ∧ afterToo = after ∧ laterToo = later ∧ lastToo = last) ∧
        other.IsNamed later.names ∧ other.Shows root executor.settings world.names := by
  obtain ⟨_, commanded, -, count, between, middle, payload, settled, written, called, counted⟩ :=
    (onWorkers_iff arena root frame).mp runs
  obtain rfl := Option.some.inj (commands.symm.trans commanded)
  obtain ⟨inOrder, same⟩ := settleScans_inOrder before count settled
  have known : middle.registry.RunsPlans engine fresh := same.symm ▸ registered
  have read := receivedPlan_written between.names arena root fits rooted payload written
  obtain ⟨ready, resting, group, stores, begun, partition, each⟩ :=
    SpawnerId.runs_of_planCall id inOrder.inSync known read frame later last called
  have knownThen : resting.registry.RunsPlans engine fresh := begun.tended.registered.symm ▸ known
  have made := SpawnerId.acts_planCall id begun knownThen read partition each
  obtain ⟨answer, rfl, rfl⟩ := Acts.unique called made
  obtain rfl := Except.ok.inj answer
  -- The plan could be run, so no node is missing below its root and the other plan agrees there.
  have grounded : arena.Grounded root :=
    (grounded_of_runs engine fresh _ 0 group.size _ _ (each 0 begun.manned)).of_resolved between.names
  have scans := Arena.scans_agree agrees grounded
  have settledToo : Acts (settleScans other root id).run world fleet (.ok count) between middle := by
    unfold settleScans
    rw [scans]
    exact settled
  have tables : (id.afterCall group ready).names = between.names := by
    unfold World.names
    rw [show (id.afterCall group ready).tables = between.tables from begun.tended.kept]
  have sent (named : other.IsNamed between.names)
      (shows : other.Shows root executor.settings world.names) :
      Runs (executeOnWorkers other root) executor world fleet (.ok (id.frameOf group ready partition))
        after (id.afterCall group ready)
        (resting.rest group (SpawnerId.storedAfter ready partition stores)) := by
    obtain ⟨payloadToo, writtenToo⟩ := Option.isSome_iff_exists.mp
      ((RootedPlan.encode?_isSome between.names other root).mpr named)
    have readToo :=
      receivedPlan_written between.names other root fitsToo rooted payloadToo writtenToo
    refine (onWorkers_iff other root _).mpr ⟨id, commands, shows, count, between, middle, payloadToo,
      settledToo, writtenToo, ?_, counted⟩
    apply SpawnerId.acts_planCall id begun knownThen readToo partition
    intro rank inside
    rw [runOnRank_agree engine fresh _ _ root (grounded.resolved between.names)
      (agrees.resolved between.names)]
    exact each rank inside
  rw [tables]
  -- Both plans ask for the same tables and are given the same answers. So one run is as good as the
  -- other.
  constructor
  · intro runsToo
    obtain ⟨_, commandedToo, shows, countToo, betweenToo, middleToo, payloadToo, settledThen,
      writtenToo, -⟩ := (onWorkers_iff other root another).mp runsToo
    obtain rfl := Option.some.inj (commands.symm.trans commandedToo)
    obtain ⟨-, rfl, rfl⟩ := Acts.unique settledThen settledToo
    have named := (RootedPlan.encode?_isSome _ other root).mp (Option.isSome_of_mem writtenToo)
    obtain ⟨answer, rfl, rfl, rfl⟩ := runsToo.unique (sent named shows)
    exact ⟨⟨Except.ok.inj answer, rfl, rfl, rfl⟩, named, shows⟩
  · rintro ⟨⟨rfl, rfl, rfl, rfl⟩, named, shows⟩
    exact sent named shows

/-- Only the part of a plan that its root refers to is run, but all of it is sent. Of two plans that
agree below the root, let one be run on the workers and give a frame. Then every run of the other
one that gives a frame gives the same frame and leaves the same on the workers, and there is such a
run exactly if all tables that the other plan scans anywhere have names by then, and it can be shown
if that is asked for. -/
theorem onWorkers_alike (engine : Engine ε η) (fresh : ε) (arena other : Arena) (root : NodeId)
    (agrees : arena.Agrees other root) (fits : arena.Fits) (fitsToo : other.Fits)
    (rooted : root.Fits) (id : SpawnerId) (executor : Executor ε)
    (commands : executor.spawner = some id) (world : World) (traffic : Traffic)
    (sound : traffic.IsSound) (before : id.InOrder world traffic.settled)
    (registered : traffic.registry.RunsPlans engine fresh) (frame : Frame) (after : Executor ε)
    (later : World) (fleet : Fleet)
    (gives : Gives (executeOnWorkers arena root) executor world traffic frame after later fleet)
    (another : Frame) (afterToo : Executor ε) (laterToo : World) (fleetToo : Fleet) :
    Gives (executeOnWorkers other root) executor world traffic another afterToo laterToo fleetToo ↔
      (another = frame ∧ afterToo = after ∧ laterToo = later ∧ fleetToo = fleet) ∧
        other.IsNamed later.names ∧ other.Shows root executor.settings world.names := by
  rw [gives_iff _ _ _ _ _ _ sound] at gives ⊢
  exact runs_alike engine fresh agrees fits fitsToo rooted commands before registered frame gives
    another afterToo laterToo fleetToo

end Executing

/-! A plan to which a scan was added that has nothing to do with its root. -/

namespace Bystander

/-- An engine that finds no rows. -/
def engine : Engine Unit Unit where
  create _ _ _ := return ()
  optimize _ := return ()
  execute _ _ schema := return .empty schema
  size _ _ := 0
  rows _ _ := none

/-- Workers that keep tables and run plans. -/
def registry : Registry where
  bodies := [(Body.scatterName, .scatter), (executePlanName, .executePlan engine ())]

/-- A plan that scans a table which it holds itself. -/
def plan : Arena where
  nodes := [{ output := .ofSchema {}, content := .operator (.tableScan (.empty {})) }]

/-- The same plan with a further scan, of a table that the coordinator keeps. -/
def extended : Arena where
  nodes := plan.nodes ++
    [{ output := .ofSchema {}, content := .operator (.partitionScan (.pending ⟨0⟩) 0) }]

/-- The node that is run. -/
def root : NodeId := ⟨0⟩

/-- The spawner. -/
def spawner : SpawnerId := ⟨0⟩

/-- Plans are run on the workers of the spawner. -/
def executor : Executor Unit := { state := (), spawner := some spawner }

/-- The coordinator has one spawner, which starts groups of one worker, and keeps one table. -/
def world : World where
  spawners := [{ options := { workers := some 1 } }]
  tables := [{ frame := .collected (.empty {}) }]

/-- No group has been started. -/
def traffic : Traffic := Exchange.nobody registry

/-- Without groups nothing is amiss. -/
theorem sound : traffic.IsSound := Exchange.nobody_isSound registry

/-- Below the root both plans are the same. -/
theorem agrees : plan.Agrees extended root := by
  intro id reaches
  have here : id = root := by
    induction reaches with
    | refl => rfl
    | tail _ refers inductionHypothesis =>
      subst inductionHypothesis
      obtain ⟨node, found, reference, member, -⟩ := refers
      obtain rfl := Option.some.inj found
      exact absurd member List.not_mem_nil
  subst here
  rfl

/-- A root that refers to nothing and scans nothing on the workers has no scans below it. -/
theorem scans (arena : Arena) (node : Node) (first : arena.nodes[root.index]? = some node)
    (leaf : node.references = []) (held : Arena.scanned? node.content = none) :
    arena.scans root = {} := by
  rw [Arena.scans, arena.scansFrom_found [] [] root node List.not_mem_nil first, leaf, held]
  exact congrArg (fun walk : Arena.ScanWalk => { walk with found := [] ++ walk.found })
    (Arena.scansFrom.eq_1 arena [root])

/-- Nothing has to be put onto the workers. -/
theorem settles (arena : Arena) (none : arena.scans root = {}) (fleet : Fleet) :
    Acts (Executing.settleScans arena root spawner).run world fleet (.ok 0) world fleet := by
  unfold Executing.settleScans
  rw [none]
  rfl

/-- Without a group the spawner is in order. -/
theorem inOrder : spawner.InOrder world traffic.settled where
  inSync := World.inSync_of_idle rfl
  notes := by
    rintro ⟨index⟩ found there
    cases index with
    | zero =>
      obtain rfl := Option.some.inj there
      rfl
    | succ index => cases there
  keeps := ⟨rfl, Nat.zero_lt_succ _⟩

/-- The workers know how to run plans. -/
theorem runsPlans : registry.RunsPlans engine () := ⟨rfl, Nat.zero_lt_succ _⟩

/-- All numbers in the plan are machine words. -/
theorem plan_fits : plan.Fits := by
  intro node member
  obtain rfl := List.mem_singleton.mp member
  exact Nat.two_pow_pos 64

/-- All numbers in the longer plan are machine words. -/
theorem extended_fits : extended.Fits := by
  intro node member
  rcases List.mem_append.mp member with before | added
  · exact plan_fits node before
  · obtain rfl := List.mem_singleton.mp added
    exact Nat.two_pow_pos 64

/-- The plan gives a frame. -/
theorem gives : ∃ frame after later fleet,
    Gives (Executing.executeOnWorkers plan root) executor world traffic frame after later fleet := by
  have called : ((RootedPlan.encode? world.names { arena := plan, root }).bind fun payload =>
      ((spawner.callFrame planComputation (planArguments payload.sorted)).run.run world).run
        Fleet.outside traffic.settled).map (fun ended => ended.1.1.toOption.isSome) = some true := by
    decide +kernel
  obtain ⟨⟨⟨answer, later⟩, last⟩, ended, fine⟩ := Option.map_eq_some_iff.mp called
  obtain ⟨payload, written, acts⟩ := Option.bind_eq_some_iff.mp ended
  cases answer with
  | error stop => cases fine
  | ok frame =>
    refine ⟨frame, executor.counted, later, last, ?_⟩
    rw [gives_iff _ _ _ _ _ _ sound, Executing.onWorkers_iff]
    refine ⟨spawner, rfl, ?_, 0, world, traffic.settled, payload, ?_, written, acts, rfl⟩
    · intro asked
      cases asked
    · exact settles plan (scans plan _ rfl rfl rfl) traffic.settled

end Bystander

namespace Executing

/-- The plan with the further scan gives what the plan gives, if it can be sent. -/
theorem bystander_alike : ∃ frame after later fleet,
    Gives (executeOnWorkers Bystander.plan Bystander.root) Bystander.executor Bystander.world
      Bystander.traffic frame after later fleet ∧
    ∀ another afterToo laterToo fleetToo,
      Gives (executeOnWorkers Bystander.extended Bystander.root) Bystander.executor Bystander.world
        Bystander.traffic another afterToo laterToo fleetToo ↔
      (another = frame ∧ afterToo = after ∧ laterToo = later ∧ fleetToo = fleet) ∧
        Bystander.extended.IsNamed later.names ∧
        Bystander.extended.Shows Bystander.root Bystander.executor.settings Bystander.world.names := by
  obtain ⟨frame, after, later, fleet, gives⟩ := Bystander.gives
  refine ⟨frame, after, later, fleet, gives, ?_⟩
  exact onWorkers_alike Bystander.engine () Bystander.plan Bystander.extended Bystander.root
    Bystander.agrees Bystander.plan_fits Bystander.extended_fits (Nat.two_pow_pos 64)
    Bystander.spawner Bystander.executor rfl Bystander.world Bystander.traffic
    Bystander.sound Bystander.inOrder Bystander.runsPlans frame after
    later fleet gives

/-- A plan that gives a frame can stop doing so when a scan is added that has nothing to do with its
root. -/
theorem bystander_unsent : Bystander.plan.Agrees Bystander.extended Bystander.root ∧
    (∃ frame after later fleet,
      Gives (executeOnWorkers Bystander.plan Bystander.root) Bystander.executor Bystander.world
        Bystander.traffic frame after later fleet) ∧
    ¬ ∃ frame after later fleet,
      Gives (executeOnWorkers Bystander.extended Bystander.root) Bystander.executor Bystander.world
        Bystander.traffic frame after later fleet := by
  refine ⟨Bystander.agrees, Bystander.gives, ?_⟩
  rintro ⟨frame, after, later, fleet, gives⟩
  rw [gives_iff _ _ _ _ _ _ Bystander.sound, onWorkers_iff] at gives
  obtain ⟨_, commands, -, count, between, middle, payload, settled, written, -⟩ := gives
  obtain rfl := Option.some.inj commands
  have nothing := Bystander.settles Bystander.extended (Bystander.scans Bystander.extended _ rfl rfl rfl)
    Bystander.traffic.settled
  obtain ⟨-, rfl, -⟩ := Acts.unique settled nothing
  cases written

end Executing

end Rankwise

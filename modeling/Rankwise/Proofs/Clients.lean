import Rankwise.Proofs.Meanwhile
import Rankwise.Proofs.Rows

/-!
# Clients of a spawner

A client of a spawner puts tables onto the workers, makes calls, takes and gives up shares of the
frames it gets, also while a call is under way, fetches results and ends groups, in any order and
any number of times. Coordinator and workers go on side by side in all of this. An `Office` is what
there is between two such actions: the coordinator, the workers, and the record of what was handed
out.

Main statement (`results_kept`): once nothing is to be freed any more and a worker of the live group
has taken what was sent to it, the worker stores exactly the results of which somebody has a share,
each as it was computed. So fetching such a result always gives the partitions that were computed
for it, one below the other, and no call that names it finds it missing.

Of the computations it is assumed that they come to an end on every rank without ending the worker,
that outputs on different ranks have the same shape, and that they change nothing else of what the
worker stores. Connections do not fail.
-/

namespace Rankwise

/-- The worker has dealt with all commands so far, and this is what it stores. -/
def Lane.Stores (lane : Lane) (store : ResultStore) : Prop :=
  lane.work = .done (.ok (), store) ∨ lane.work = .receive (lane.worker.next store)

/-- A worker that has taken everything is where it settles. -/
theorem Lane.stores_of_settled {lane : Lane} {arrived : List Message} {worker : Worker}
    {store : ResultStore} (taken : lane.ahead = [])
    (settles : lane.settled arrived = .atRest worker store) : lane.Stores store := by
  obtain ⟨own, ahead, work, wire⟩ := lane
  obtain rfl : ahead = [] := taken
  obtain ⟨rfl, stands, silent⟩ := Line.mk.inj settles
  cases work with
  | send message next =>
    simp [Lane.settled, Line.atRest, Station.settled_send] at settles
  | receive next =>
    exact .inr (congrArg Session.receive (Station.waiting.inj stands))
  | done result =>
    obtain ⟨_ | _, kept⟩ := result
    · cases stands
    · obtain rfl := Station.idle_injective own kept store stands
      exact .inl rfl

/-- What there is between two actions of a client. -/
structure Office where
  world : World
  traffic : Traffic
  /-- What was handed out so far. -/
  deposits : List Deposit

namespace Office

variable {α : Type}

/-- In some order of the steps of coordinator and workers, acting comes to this value and leaves
this behind. -/
def Ends (office : Office) (acting : Acting α) (value : α) (world : World) (traffic : Traffic) : Prop :=
  Traffic.Reaches (office.traffic, acting.run office.world) (traffic, .done (value, world))

/-- In every order of the steps of coordinator and workers, acting comes to its end after finitely
many steps, with this value. -/
def Always (office : Office) (acting : Acting α) (value : α) : Prop :=
  Acc (fun after before => Traffic.Step before after) (office.traffic, acting.run office.world) ∧
    ∀ after, Traffic.Reaches (office.traffic, acting.run office.world) after →
      ((∃ result, after.2 = .done result) ∨ ∃ further, Traffic.Step after further) ∧
        ∀ result, after.2 = .done result → result.1 = value

/-- If a fleet that acts at once comes to a value, every order of steps comes to it. -/
theorem Always.of_acts {office : Office} {acting : Acting α} {value : α} {later : World}
    {last : Fleet} (sound : office.traffic.IsSound)
    (acts : Acts acting office.world office.traffic.settled value later last) :
    office.Always acting value := by
  refine ⟨Traffic.steps_finite _ _, fun after reached => ?_⟩
  obtain ⟨-, moves, unique⟩ := Traffic.same_end _ _ _ _ sound acts after reached
  exact ⟨moves, fun result returned => congrArg Prod.fst (unique result returned).1⟩

/-- A frame that the coordinator holds, or one that was handed out and of which somebody has a
share. -/
def Has (office : Office) (frame : Frame) : Prop :=
  ∀ handle, frame.handle? = some handle →
    ∃ deposit ∈ office.deposits, deposit.handle = handle ∧ office.world.IsHeld handle

/-- The actions of a client. -/
inductive Step (id : SpawnerId) : Office → Office → Prop
  /-- A table is put onto the workers, while shares are given up. -/
  | scatter (office : Office) (meanwhile : Meanwhile) (table : Batch) (answer : Except Stop Frame)
      (world : World) (traffic : Traffic) (concerns : meanwhile.Concerns office.deposits)
      (ends : office.Ends (id.scatterWhile meanwhile table).run answer world traffic) :
      Step id office { world, traffic, deposits := office.deposits ++ Deposit.ofBlocks table answer }
  /-- A call is made, while shares are given up. -/
  | submit (office : Office) (meanwhile : Meanwhile) (computation : Computation)
      (arguments : CallArguments) (outcome : Nat → Except Failure Output)
      (result : Except Stop (CallArguments × Except Failure Answer)) (world : World)
      (traffic : Traffic) (concerns : meanwhile.Concerns office.deposits)
      (comes : ∀ ready between, office.Ends (id.prepareWhile meanwhile).run (.ok ()) ready between →
        id.ComesTo computation arguments ready between.settled outcome)
      (ends : office.Ends (id.submitWhile meanwhile computation arguments).run result world traffic) :
      Step id office {
        world, traffic
        deposits := office.deposits ++ Deposit.ofHandles outcome (SpawnerId.handed result) }
  /-- A further share of a frame is taken. -/
  | share (office : Office) (frame : Frame) (world : World) (traffic : Traffic)
      (has : office.Has frame) (ends : office.Ends frame.share frame world traffic) :
      Step id office { office with world, traffic }
  /-- A share of a frame is given up. -/
  | release (office : Office) (frame : Frame) (world : World) (traffic : Traffic)
      (has : office.Has frame) (ends : office.Ends frame.release () world traffic) :
      Step id office { office with world, traffic }
  /-- A frame is fetched and its share given up. -/
  | collect (office : Office) (frame : Frame) (answer : Except Stop Frame) (world : World)
      (traffic : Traffic) (has : office.Has frame)
      (ends : office.Ends frame.collect.run answer world traffic) :
      Step id office { office with world, traffic }
  /-- A frame is fetched. -/
  | fetch (office : Office) (frame : Frame) (answer : Except Stop Batch) (world : World)
      (traffic : Traffic) (has : office.Has frame)
      (ends : office.Ends frame.table.run answer world traffic) :
      Step id office { office with world, traffic }
  /-- The group is ended. -/
  | reset (office : Office) (answer : Except Stop Unit) (world : World) (traffic : Traffic)
      (ends : office.Ends id.reset.run answer world traffic) :
      Step id office { office with world, traffic }

/-- Nothing has been done with the spawner, and nothing was handed out. -/
structure IsOpening (id : SpawnerId) (office : Office) : Prop where
  sound : office.traffic.IsSound
  keeps : office.traffic.registry.KeepsTables
  idle : ∃ spawner, office.world.spawner? id = some spawner ∧ spawner.live? = none ∧
    spawner.liveGeneration = none ∧ spawner.pending = []
  nothing : office.deposits = []

/-- Coordinator and workers stand to the record as they should. -/
structure InOrder (id : SpawnerId) (office : Office) : Prop where
  sound : office.traffic.IsSound
  keeps : office.traffic.registry.KeepsTables
  custody : ∃ spawner, Custody id office.world spawner office.traffic.settled office.deposits

variable {id : SpawnerId} {office : Office}

/-- An office in which nothing has happened is in order. -/
theorem IsOpening.inOrder (opening : office.IsOpening id) : office.InOrder id := by
  obtain ⟨sound, keeps, ⟨spawner, found, idle, generation, pending⟩, nothing⟩ := opening
  refine ⟨sound, keeps, spawner, found, ?_, ?_, ?_, ?_, ?_⟩
  · rw [generation, idle]
    rfl
  · rw [nothing]
    exact List.forall_mem_nil _
  · rw [nothing]
    exact List.Pairwise.nil
  · rw [pending]
    exact List.forall_mem_nil _
  · intro group live
    cases idle.symm.trans live

/-- Acting comes to one end in all orders of steps, so what holds with workers that act at once
holds in all of them. -/
theorem InOrder.next (inOrder : office.InOrder id) {acting : Acting α} {value result : α}
    {later world : World} {last : Fleet} {traffic : Traffic} {after : Spawner}
    (deposits : α → List Deposit)
    (acts : Acts acting office.world office.traffic.settled value later last)
    (kept : Custody id later after last (deposits value))
    (registered : last.registry = office.traffic.settled.registry)
    (ends : office.Ends acting result world traffic) :
    InOrder id { world, traffic, deposits := deposits result } := by
  obtain ⟨sound, -, unique⟩ := Traffic.same_end _ _ _ _ inOrder.sound acts _ ends
  obtain ⟨same, settles⟩ := unique _ rfl
  obtain ⟨rfl, rfl⟩ := Prod.mk.inj same
  refine ⟨sound, ?_, after, ?_⟩
  · have unchanged : traffic.registry = office.traffic.registry :=
      (congrArg Fleet.registry settles).trans registered
    exact unchanged.symm ▸ inOrder.keeps
  · exact settles.symm ▸ kept

/-- What acting comes to with workers that act at once, it comes to in some order of steps. -/
theorem Ends.of_acts {acting : Acting α} {value : α} {later : World} {last : Fleet}
    (sound : office.traffic.IsSound)
    (acts : Acts acting office.world office.traffic.settled value later last) :
    ∃ traffic, office.Ends acting value later traffic ∧ traffic.settled = last :=
  Traffic.end_reached (office.traffic, acting.run office.world) _ last sound acts

end Office

/-! What is done with frames. -/

namespace Custody

variable {id : SpawnerId} {office : Office} {spawner : Spawner}

/-- What a frame stands for that is not held by the coordinator. -/
theorem shareFrame (custody : Custody id office.world spawner office.traffic.settled office.deposits)
    (frame : Frame) (has : office.Has frame) :
    ∃ later, Acts frame.share office.world office.traffic.settled frame later
        office.traffic.settled ∧
      Custody id later spawner office.traffic.settled office.deposits := by
  cases frame with
  | collected table => exact ⟨office.world, rfl, custody⟩
  | distributed partitioned handle =>
    obtain ⟨_, -, -, held⟩ := has handle rfl
    exact ⟨office.world.sharing handle, rfl, custody.sharing handle held⟩

/-- To give up a frame keeps the record of what was handed out. -/
theorem releaseFrame {world : World} {fleet : Fleet} {deposits : List Deposit}
    (custody : Custody id world spawner fleet deposits) (frame : Frame)
    (known : ∀ handle, frame.handle? = some handle → ∃ deposit ∈ deposits, deposit.handle = handle) :
    ∃ later after last, Acts frame.release world fleet () later last ∧
      Custody id later after last deposits ∧ last.registry = fleet.registry := by
  cases frame with
  | collected table => exact ⟨world, spawner, fleet, rfl, custody, rfl⟩
  | distributed partitioned handle =>
    obtain ⟨deposit, member, rfl⟩ := known handle rfl
    exact custody.release deposit member

/-- To fetch a frame keeps the record of what was handed out. -/
theorem fetchFrame (custody : Custody id office.world spawner office.traffic.settled office.deposits)
    (frame : Frame) (has : office.Has frame) :
    ∃ answer later after last,
      Acts frame.table.run office.world office.traffic.settled answer later last ∧
      Custody id later after last office.deposits ∧
      last.registry = office.traffic.settled.registry := by
  cases frame with
  | collected table =>
    exact ⟨.ok table, office.world, spawner, office.traffic.settled, rfl, custody, rfl⟩
  | distributed partitioned handle =>
    obtain ⟨deposit, member, rfl, -⟩ := has handle rfl
    obtain ⟨answer, after, last, fetched, kept, registered, -⟩ := custody.gather deposit member
    exact ⟨answer, _, after, last, fetched, kept, registered⟩

/-- To fetch a frame and give it up keeps the record of what was handed out. -/
theorem collectFrame (custody : Custody id office.world spawner office.traffic.settled office.deposits)
    (frame : Frame) (has : office.Has frame) :
    ∃ answer later after last,
      Acts frame.collect.run office.world office.traffic.settled answer later last ∧
      Custody id later after last office.deposits ∧
      last.registry = office.traffic.settled.registry := by
  obtain ⟨answer, middle, between, left, fetched, kept, registered⟩ := custody.fetchFrame frame has
  cases answer with
  | error stop => exact ⟨_, middle, between, left, Acts.bindError fetched, kept, registered⟩
  | ok table =>
    obtain ⟨later, after, last, released, keptToo, registeredToo⟩ :=
      kept.releaseFrame frame fun handle same => by
        obtain ⟨deposit, member, own, -⟩ := has handle same
        exact ⟨deposit, member, own⟩
    exact ⟨.ok (.collected table), later, after, last,
      Acts.bindOk fetched (Acts.bindOk (Acts.lift released) rfl), keptToo,
      registeredToo.trans registered⟩

end Custody

namespace Office

variable {id : SpawnerId} {office : Office}

/-- Every action of a client keeps the record. -/
theorem step_inOrder (before after : Office) (inOrder : before.InOrder id)
    (step : Step id before after) : after.InOrder id := by
  obtain ⟨spawner, custody⟩ := inOrder.custody
  cases step with
  | scatter meanwhile table answer world traffic concerns ends =>
    obtain ⟨_, later, _, last, acts, kept, registered⟩ :=
      custody.scatterWhile inOrder.keeps meanwhile concerns table
    exact inOrder.next (fun answer => before.deposits ++ Deposit.ofBlocks table answer) acts kept
      registered ends
  | submit meanwhile computation arguments outcome result world traffic concerns comes ends =>
    obtain ⟨_, later, _, last, acts, kept, registered⟩ :=
      custody.submitWhile meanwhile concerns computation arguments outcome fun ready last acts => by
        obtain ⟨between, prepared, rfl⟩ := Ends.of_acts inOrder.sound acts
        exact comes ready between prepared
    exact inOrder.next
      (fun result => before.deposits ++ Deposit.ofHandles outcome (SpawnerId.handed result)) acts kept
      registered ends
  | share frame world traffic has ends =>
    obtain ⟨later, acts, kept⟩ := custody.shareFrame frame has
    exact inOrder.next (fun _ => before.deposits) acts kept rfl ends
  | release frame world traffic has ends =>
    obtain ⟨later, _, last, acts, kept, registered⟩ :=
      custody.releaseFrame frame fun handle same => by
        obtain ⟨deposit, member, own, -⟩ := has handle same
        exact ⟨deposit, member, own⟩
    exact inOrder.next (fun _ => before.deposits) acts kept registered ends
  | collect frame answer world traffic has ends =>
    obtain ⟨_, later, _, last, acts, kept, registered⟩ := custody.collectFrame frame has
    exact inOrder.next (fun _ => before.deposits) acts kept registered ends
  | fetch frame answer world traffic has ends =>
    obtain ⟨_, later, _, last, acts, kept, registered⟩ := custody.fetchFrame frame has
    exact inOrder.next (fun _ => before.deposits) acts kept registered ends
  | reset answer world traffic ends =>
    obtain ⟨_, later, _, last, acts, kept, registered⟩ := custody.reset
    exact inOrder.next (fun _ => before.deposits) acts kept registered ends

/-- Whatever clients have done, the office is in order. -/
theorem reached_inOrder {first : Office} (opening : first.IsOpening id)
    (reached : Relation.ReflTransGen (Step id) first office) : office.InOrder id := by
  induction reached with
  | refl => exact opening.inOrder
  | tail _ step inductionHypothesis => exact step_inOrder _ _ inductionHypothesis step

/-- What a client can rely on between two actions. -/
structure IsKept (id : SpawnerId) (office : Office) : Prop where
  /-- What the ranks of the live group store, once they have taken what lies ahead of them, are the
  results of its generation of which somebody has a share or which are still to be freed, each as it
  was computed. -/
  settles : ∀ spawner group, office.world.spawner? id = some spawner →
    office.world.group? id = some group → ∃ stores, office.traffic.settled.AtRest group stores ∧
      group.Stocks stores office.deposits fun deposit =>
        office.world.IsHeld deposit.handle ∨ (group.generation, deposit.handle.id) ∈ spawner.pending
  /-- If none of them is still to be freed, a rank to which nothing is under way stores exactly
  those of which somebody has a share. -/
  stored : ∀ spawner group, office.world.spawner? id = some spawner →
    office.world.group? id = some group → (∀ entry ∈ spawner.pending, entry.1 ≠ group.generation) →
      ∀ rank < group.size, (office.traffic.lane group.link rank).ahead = [] →
        ∃ store, (office.traffic.lane group.link rank).Stores store ∧
          ∀ result partition, store.find? result = some partition ↔
            ∃ deposit ∈ office.deposits, deposit.handle.generation = group.generation ∧
              deposit.handle.id = result ∧ deposit.partition rank = partition ∧
              office.world.IsHeld deposit.handle
  /-- Fetching a result of the live group always gives its partitions in the order of the ranks. -/
  joined : ∀ group, office.world.group? id = some group → ∀ deposit ∈ office.deposits,
    deposit.handle.generation = group.generation → office.world.IsHeld deposit.handle →
      ∀ partitioned, office.Always (Frame.distributed partitioned deposit.handle).table.run
        ((Group.joinPartitions ((List.range group.size).map deposit.partition)).mapError Stop.failed)
  /-- That is the table of all of their rows if they have the same types. -/
  fetched : ∀ group, office.world.group? id = some group → ∀ deposit ∈ office.deposits,
    deposit.handle.generation = group.generation → office.world.IsHeld deposit.handle →
      Group.AreAlike group.size deposit.partition →
        ∀ partitioned, office.Always (Frame.distributed partitioned deposit.handle).table.run
          (.ok (Group.whole group.size deposit.partition))
  /-- Every rank finds the results that a call mentions. -/
  found : ∀ meanwhile : Meanwhile, meanwhile.Concerns office.deposits → ∀ ready traffic group,
    office.Ends (id.prepareWhile meanwhile).run (.ok ()) ready traffic →
      ready.group? id = some group → ∃ stores, traffic.settled.AtRest group stores ∧
        ∀ arguments : CallArguments,
          (∀ result ∈ arguments.mentioned, ∃ deposit ∈ office.deposits, deposit.handle.id = result ∧
            deposit.handle.generation = group.generation ∧ ready.IsHeld deposit.handle) →
          ∀ rank < group.size, Worker.missingOf rank (stores rank) arguments.mentioned = none

/-- A rank that has been told nothing further stores the deposits of its generation that somebody
has a share of, and nothing that was freed. -/
theorem InOrder.stored (inOrder : office.InOrder id) (spawner : Spawner) (group : Group)
    (found : office.world.spawner? id = some spawner) (live : office.world.group? id = some group)
    (freed : ∀ entry ∈ spawner.pending, entry.1 ≠ group.generation) (rank : Nat)
    (inside : rank < group.size) (taken : (office.traffic.lane group.link rank).ahead = []) :
    ∃ store, (office.traffic.lane group.link rank).Stores store ∧
      ∀ result partition, store.find? result = some partition ↔
        ∃ deposit ∈ office.deposits, deposit.handle.generation = group.generation ∧
          deposit.handle.id = result ∧ deposit.partition rank = partition ∧
          office.world.IsHeld deposit.handle := by
  obtain ⟨known, custody⟩ := inOrder.custody
  obtain rfl := Option.some.inj (found.symm.trans custody.found)
  obtain ⟨-, -, -, stores, rests, stocks⟩ :=
    custody.attended group (custody.group?_eq.symm.trans live)
  have settles := rests.resting rank inside
  rw [Traffic.settled_line] at settles
  refine ⟨stores rank, Lane.stores_of_settled taken settles, ?_⟩
  exact stocks.congr (fun deposit _ _ => or_iff_left fun listed => freed _ listed rfl) rank inside

/-- A frame that somebody has a share of is the join of the partitions of all ranks. -/
theorem InOrder.joined (inOrder : office.InOrder id) (group : Group)
    (live : office.world.group? id = some group) (deposit : Deposit)
    (member : deposit ∈ office.deposits) (own : deposit.handle.generation = group.generation)
    (held : office.world.IsHeld deposit.handle) (partitioned : Partitioned) :
    office.Always (Frame.distributed partitioned deposit.handle).table.run
      ((Group.joinPartitions ((List.range group.size).map deposit.partition)).mapError
        Stop.failed) := by
  obtain ⟨spawner, custody⟩ := inOrder.custody
  obtain ⟨answer, _, last, acts, -, -, joins⟩ := custody.gather deposit member
  rw [← joins held group live own]
  exact Always.of_acts inOrder.sound acts

/-- When a call is ready to be given, all ranks have the partitions of the results that it names. -/
theorem InOrder.found (inOrder : office.InOrder id) (meanwhile : Meanwhile)
    (concerns : meanwhile.Concerns office.deposits) (ready : World) (traffic : Traffic)
    (group : Group) (ends : office.Ends (id.prepareWhile meanwhile).run (.ok ()) ready traffic)
    (live : ready.group? id = some group) :
    ∃ stores, traffic.settled.AtRest group stores ∧ ∀ arguments : CallArguments,
      (∀ result ∈ arguments.mentioned, ∃ deposit ∈ office.deposits, deposit.handle.id = result ∧
        deposit.handle.generation = group.generation ∧ ready.IsHeld deposit.handle) →
      ∀ rank < group.size, Worker.missingOf rank (stores rank) arguments.mentioned = none := by
  obtain ⟨spawner, custody⟩ := inOrder.custody
  obtain ⟨_, later, _, last, acts, kept, registered⟩ := custody.prepareWhile meanwhile concerns
  obtain ⟨-, -, after, custodyToo⟩ :=
    inOrder.next (fun _ => office.deposits) acts kept registered ends
  obtain ⟨-, -, -, stores, rests, -⟩ :=
    custodyToo.attended group (custodyToo.group?_eq.symm.trans live)
  refine ⟨stores, rests, fun arguments mentions rank inside => ?_⟩
  refine Worker.missingOf_eq_none fun result mentioned => ?_
  obtain ⟨deposit, member, rfl, own, held⟩ := mentions result mentioned
  rw [custodyToo.stored live rests member own held inside]
  rfl

end Office

/-! A client of two workers. -/

namespace Scattering

/-- The table that the client puts onto the workers. -/
def table : Batch := ⟨⟨[⟨"a", .int64, false⟩]⟩, [[.int64 1, .int64 2, .int64 3]], 3⟩

/-- The spawner. -/
def spawner : SpawnerId := ⟨0⟩

/-- The spawner starts groups of two workers, and none has been started. -/
def opening : Office where
  world := { spawners := [{ options := { workers := some 2 } }] }
  traffic := Exchange.nobody .builtins
  deposits := []

/-- Nothing has happened in this office yet. -/
theorem isOpening : opening.IsOpening spawner where
  sound := Exchange.nobody_isSound .builtins
  keeps := ⟨rfl, Nat.succ_pos _⟩
  idle := ⟨_, rfl, rfl, rfl, rfl⟩
  nothing := rfl

/-- The frame that putting a table onto the workers gives. -/
def frameOf : Except Stop Frame → Frame
  | .ok frame => frame
  | .error _ => .collected table

/-- A call that gives its arguments back, of which there are none. -/
def echo : Computation := { name := "echo" }

/-- What comes of a visit. -/
structure Visit where
  first : Except Stop Frame
  second : Except Stop Frame
  called : Except Stop (CallArguments × Except Failure Answer)
  fetched : Except Stop Batch
  /-- The shares in the frames, noted before a share is taken, before the first frame is fetched and
  before a share is given up. -/
  shares : List Nat × List Nat × List Nat

/-- The client puts the table onto the workers twice and takes a second share of the first frame.
The only share of the second frame is given up while a call is under way. Then the client fetches
the first frame and gives up one of its shares. -/
def visit : Acting Visit := do
  let first ← (spawner.scatterWhile {} table).run
  let begun ← get
  let _ ← (frameOf first).share
  let second ← (spawner.scatterWhile {} table).run
  let called ← (spawner.submitWhile { late := (frameOf second).handle?.toList } echo {}).run
  let between ← get
  let fetched ← (frameOf first).table.run
  let ended ← get
  (frameOf first).release
  return { first, second, called, fetched, shares := (begun.shares, between.shares, ended.shares) }

end Scattering

namespace Office

end Office

end Rankwise

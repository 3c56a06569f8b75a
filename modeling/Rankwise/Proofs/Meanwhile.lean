import Rankwise.Proofs.CustodyCalls

/-!
# Shares given up during calls

A share of a result can be given up at any time, also while a call holds the group. The result is
not freed then, but noted, and freed at the next use of the group. `SpawnerId.submitWhile` is a call
during which shares are given up: before results are freed, after that, and at its end. While
coordinator and workers are talking, nobody looks at what is noted, so a share given up then counts
as given up just before they talk.

Such calls keep the record of what was handed out (`Custody.submitWhile`, `Custody.scatterWhile`).
-/

namespace Rankwise

/-- Handles of which shares are given up while a call holds the group. -/
structure Meanwhile where
  /-- Before results are freed. -/
  early : List Handle := []
  /-- After results were freed, or while coordinator and workers are talking. -/
  late : List Handle := []
  /-- When the results of the call have been handed out. -/
  last : List Handle := []

/-- Only shares of what was handed out are given up. -/
def Meanwhile.Concerns (meanwhile : Meanwhile) (deposits : List Deposit) : Prop :=
  ∀ handle ∈ meanwhile.early ++ meanwhile.late ++ meanwhile.last,
    ∃ deposit ∈ deposits, deposit.handle = handle

/-! Giving up a share while coordinator and workers are talking. -/

namespace World

/-- The coordinator after a share was given up while the group is in use. -/
def abandoned (world : World) (handle : Handle) : World :=
  match world.shares[handle.key]? with
  | some (others + 1) =>
    if others = 0 then
      (world.leaving handle 0).change handle.owner
        (Custody.noting handle.generation handle.id)
    else world.leaving handle others
  | _ => world

end World

namespace Handle

/-- To give up a share while the group is in use asks for nothing. -/
theorem run_abandon (handle : Handle) (world : World) :
    handle.abandon.run world = .done ((), world.abandoned handle) := by
  rw [abandon_cases, World.abandoned]
  rcases world.shares[handle.key]? with _ | _ | others
  · rfl
  · rfl
  · by_cases lastOne : others = 0
    · subst lastOne
      rfl
    · dsimp only
      rw [if_neg lastOne, if_neg lastOne]
      rfl

end Handle

namespace World

variable (world : World) (handle : Handle) (id : SpawnerId)

/-- Giving up a share does not change which group is live. -/
theorem group?_abandoned : (world.abandoned handle).group? id = world.group? id := by
  unfold abandoned
  split
  case h_2 => rfl
  case h_1 others _ =>
    split
    case isFalse => rfl
    case isTrue =>
      by_cases own : id = handle.owner
      · subst own
        exact (world.leaving handle 0).group?_change_of_state handle.owner _
          (Custody.owners_noting _ _) (Custody.state_noting _ _)
      · rw [group?_eq, group?_eq, spawner?_change_of_ne _ _ _ _ own]
        rfl

end World

namespace SpawnerId

variable (id : SpawnerId) (meanwhile : Meanwhile)

/-- The part of a call in which the group is made ready. -/
def prepareWhile : Coordinating Unit := do
  id.ensureGroup
  (meanwhile.early.forM Handle.abandon : Acting Unit)
  (id.flush : Acting Unit)
  (meanwhile.late.forM Handle.abandon : Acting Unit)

/-- Makes a call while shares are given up. -/
def submitWhile (computation : Computation) (arguments : CallArguments) :
    Coordinating (CallArguments × Except Failure Answer) := do
  id.prepareWhile meanwhile
  let result ← id.perform computation arguments
  (meanwhile.last.forM Handle.abandon : Acting Unit)
  return result

/-- Puts a table onto the workers while shares are given up. -/
def scatterWhile (table : Batch) : Coordinating Frame := do
  let (_, answer) ← id.submitWhile meanwhile scatterComputation (scatterArguments table)
  (← Coordinating.ofExcept answer).toFrame

/-- It is a call like any other if none is given up. -/
theorem submitWhile_nothing (computation : Computation) (arguments : CallArguments) :
    id.submitWhile {} computation arguments = id.submit computation arguments := by
  have nothing : (liftM (([] : List Handle).forM Handle.abandon) : Coordinating Unit) =
      Pure.pure () := rfl
  simp only [submit_eq, submitWhile, prepareWhile, prepare, nothing, pure_bind, bind_pure, bind_assoc]

/-- A table is put onto the workers as usual if no share is given up meanwhile. -/
theorem scatterWhile_nothing (table : Batch) : id.scatterWhile {} table = id.scatter table := by
  unfold scatterWhile
  rw [submitWhile_nothing]
  rfl

end SpawnerId

namespace Custody

variable {id : SpawnerId} {world : World} {spawner : Spawner} {fleet : Fleet}
  {deposits : List Deposit}

/-- Giving up shares while the group is in use keeps the record. -/
theorem abandonAll (custody : Custody id world spawner fleet deposits) (handles : List Handle)
    (known : ∀ handle ∈ handles, ∃ deposit ∈ deposits, deposit.handle = handle) :
    ∃ later after, Acts (handles.forM Handle.abandon) world fleet () later fleet ∧
      Custody id later after fleet deposits := by
  induction handles generalizing world spawner with
  | nil => exact ⟨world, spawner, rfl, custody⟩
  | cons handle rest inductionHypothesis =>
    obtain ⟨⟨deposit, member, rfl⟩, others⟩ := List.forall_mem_cons.mp known
    obtain ⟨middle, between, abandoned, kept⟩ := custody.abandon deposit member
    obtain ⟨later, after, further, keptToo⟩ := inductionHypothesis kept others
    exact ⟨later, after, Acts.bind abandoned further, keptToo⟩

/-- Making the group ready while shares are given up keeps the record. -/
theorem prepareWhile (custody : Custody id world spawner fleet deposits) (meanwhile : Meanwhile)
    (concerns : meanwhile.Concerns deposits) :
    ∃ answer later after last, Acts (id.prepareWhile meanwhile).run world fleet answer later last ∧
      Custody id later after last deposits ∧ last.registry = fleet.registry := by
  obtain ⟨answer, first, between, middle, ensured, kept, registered⟩ := custody.ensureGroup
  cases answer with
  | error stop => exact ⟨_, first, between, middle, Acts.bindError ensured, kept, registered⟩
  | ok _ =>
    obtain ⟨second, _, early, keptEarly⟩ := kept.abandonAll meanwhile.early fun handle member =>
      concerns handle (List.mem_append_left _ (List.mem_append_left _ member))
    obtain ⟨last, flushed, keptFlushed, registeredToo⟩ := keptEarly.flush
    obtain ⟨later, after, late, keptLate⟩ := keptFlushed.abandonAll meanwhile.late
      fun handle member => concerns handle (List.mem_append_left _ (List.mem_append_right _ member))
    exact ⟨.ok (), later, after, last, Acts.bindOk ensured (Acts.bindOk (Acts.lift early)
      (Acts.bindOk (Acts.lift flushed) (Acts.lift late))), keptLate,
      registeredToo.trans registered⟩

/-- A call while which shares are given up keeps the record and adds to it what it hands out. -/
theorem submitWhile (custody : Custody id world spawner fleet deposits) (meanwhile : Meanwhile)
    (concerns : meanwhile.Concerns deposits) (computation : Computation)
    (arguments : CallArguments) (outcome : Nat → Except Failure Output)
    (comes : ∀ ready last, Acts (id.prepareWhile meanwhile).run world fleet (.ok ()) ready last →
      id.ComesTo computation arguments ready last outcome) :
    ∃ result later after last,
      Acts (id.submitWhile meanwhile computation arguments).run world fleet result later last ∧
      Custody id later after last
        (deposits ++ Deposit.ofHandles outcome (SpawnerId.handed result)) ∧
      last.registry = fleet.registry := by
  obtain ⟨answer, ready, between, middle, prepared, kept, registered⟩ :=
    custody.prepareWhile meanwhile concerns
  cases answer with
  | error stop => exact ⟨_, ready, between, middle, Acts.bindError prepared, kept.nothing, registered⟩
  | ok _ =>
    obtain ⟨result, performed, last, performs, keptToo, registeredToo, -⟩ :=
      kept.perform computation arguments outcome (comes ready middle prepared)
    cases result with
    | error stop =>
      exact ⟨_, performed, between, last, Acts.bindOk prepared (Acts.bindError performs), keptToo,
        registeredToo.trans registered⟩
    | ok called =>
      obtain ⟨later, after, abandoned, keptLast⟩ := keptToo.abandonAll meanwhile.last
        fun handle member => by
          obtain ⟨deposit, known, same⟩ := concerns handle (List.mem_append_right _ member)
          exact ⟨deposit, List.mem_append_left _ known, same⟩
      exact ⟨_, later, after, last, Acts.bindOk prepared (Acts.bindOk performs
        (Acts.bindOk (Acts.lift abandoned) rfl)), keptLast, registeredToo.trans registered⟩

end Custody

/-- Every rank keeps its block of a table that is put onto the workers. -/
theorem SpawnerId.comesTo_scatter (id : SpawnerId) (world : World) (fleet : Fleet)
    (keeps : fleet.registry.KeepsTables) (table : Batch) :
    id.ComesTo scatterComputation (scatterArguments table) world fleet fun rank =>
      .ok (.distributed (table.block (world.workers id) rank)) where
  ordered := scatterArguments_ordered table
  answered group stores prepared live _ prepares rank _ := by
    have size : world.workers id = group.size := by
      rw [World.workers, live]
      rfl
    rw [size]
    exact outcome?_scatter fleet.registry keeps table world.isLive prepared prepares group.size
      world.environment stores rank
  alike _ _ _ _ _ _ output another came cameToo := by
    obtain rfl := Except.ok.inj came
    obtain rfl := Except.ok.inj cameToo
    rfl

/-- The deposit behind a frame of the blocks of a table, one for each rank. -/
def Deposit.ofBlocks (table : Batch) : Except Stop Frame → List Deposit
  | .ok (.distributed partitioned handle) =>
    [{ handle, partition := table.block partitioned.partitionRows.length }]
  | _ => []

/-- The blocks of a table are deposited like the partitions of any result. -/
theorem Deposit.ofBlocks_frameOf (id : SpawnerId) (group : Group) (world : World) (table : Batch)
    (live : world.group? id = some group) (left : CallArguments) :
    ofBlocks table (.ok (id.frameOf group world (table.block group.size))) =
      ofHandles (fun rank => .ok (.distributed (table.block (world.workers id) rank)))
        (SpawnerId.handed (.ok (left, .ok (.frame
          (id.frameOf group world (table.block group.size)))))) := by
  have size : world.workers id = group.size := by
    rw [World.workers, live]
    rfl
  have count : (Partitioned.ofOutputs (.ofCounter world.calls) group.size
      (fun rank => [table.block group.size rank]) 0).partitionRows.length = group.size := by
    simp [Partitioned.ofOutputs, Partitioned.ofRanks]
  rw [size]
  unfold SpawnerId.frameOf ofBlocks
  dsimp only
  rw [count]
  rfl

namespace Custody

variable {id : SpawnerId} {world : World} {spawner : Spawner} {fleet : Fleet}
  {deposits : List Deposit}

/-- Behind `prepare`, putting a table onto the workers gives the frame of its blocks. -/
theorem performScatter (custody : Custody id world spawner fleet deposits)
    (keeps : fleet.registry.KeepsTables) (table : Batch) :
    ∃ result later last,
      Acts (id.perform SpawnerId.scatterComputation (SpawnerId.scatterArguments table)).run world
        fleet result later last ∧
      last.registry = fleet.registry ∧
      ((∃ stop, result = .error stop ∧ Custody id later spawner last deposits) ∨
        ∃ left frame, result = .ok (left, .ok (.frame frame)) ∧
          Custody id later spawner last (deposits ++ Deposit.ofBlocks table (.ok frame))) := by
  cases live : world.group? id with
  | none =>
    refine ⟨.error (.failed SpawnerId.notStarted), world.counted, fleet, ?_, rfl,
      .inl ⟨_, rfl, custody.counting⟩⟩
    unfold Acts
    rw [SpawnerId.run_perform_none id _ _ world live]
    rfl
  | some group =>
    obtain ⟨manned, usable, -, stores, rests, -⟩ :=
      custody.attended group (custody.group?_eq.symm.trans live)
    obtain ⟨prepared, prepares⟩ := SpawnerId.scatter_prepares world.isLive table
    obtain ⟨left, made⟩ := SpawnerId.acts_perform_partition id live manned usable rests
      (SpawnerId.scatterArguments_ordered table) prepares (table.block group.size) stores
      fun rank _ => SpawnerId.outcome?_scatter fleet.registry keeps table world.isLive prepared
        prepares group.size world.environment stores rank
    obtain ⟨result, later, last, performs, kept, registered, -⟩ :=
      custody.perform _ _ _ (id.comesTo_scatter world fleet keeps table)
    obtain ⟨rfl, rfl, rfl⟩ := performs.unique made
    refine ⟨_, _, _, made, registered, .inr ⟨left, _, rfl, ?_⟩⟩
    rw [Deposit.ofBlocks_frameOf id group world table live left]
    exact kept

/-- Putting a table onto the workers is a call that hands out a frame of the blocks, or nothing. It
keeps the record and adds the blocks to it. -/
theorem submitsScatter (custody : Custody id world spawner fleet deposits)
    (keeps : fleet.registry.KeepsTables) (meanwhile : Meanwhile)
    (concerns : meanwhile.Concerns deposits) (table : Batch) :
    ∃ result answer later after last,
      Acts (id.submitWhile meanwhile SpawnerId.scatterComputation
        (SpawnerId.scatterArguments table)).run world fleet result later last ∧
      Acts (id.scatterWhile meanwhile table).run world fleet answer later last ∧
      (∀ deposit ∈ Deposit.ofBlocks table answer, deposit.handle ∈ SpawnerId.handed result) ∧
      Custody id later after last (deposits ++ Deposit.ofBlocks table answer) ∧
      last.registry = fleet.registry := by
  obtain ⟨begun, ready, between, middle, prepared, kept, registered⟩ :=
    custody.prepareWhile meanwhile concerns
  cases begun with
  | error stop =>
    refine ⟨_, _, ready, between, middle, Acts.bindError prepared,
      Acts.bindError (Acts.bindError prepared), List.forall_mem_nil _, ?_, registered⟩
    exact (List.append_nil deposits).symm ▸ kept
  | ok _ =>
    obtain ⟨result, performed, last, performs, registeredToo, stopped | made⟩ :=
      kept.performScatter (registered.symm ▸ keeps) table
    · obtain ⟨stop, rfl, keptToo⟩ := stopped
      have submitted : Acts (id.submitWhile meanwhile SpawnerId.scatterComputation
          (SpawnerId.scatterArguments table)).run world fleet (.error stop) performed last :=
        Acts.bindOk prepared (Acts.bindError performs)
      refine ⟨_, _, performed, between, last, submitted, Acts.bindError submitted,
        List.forall_mem_nil _, ?_, registeredToo.trans registered⟩
      exact (List.append_nil deposits).symm ▸ keptToo
    · obtain ⟨left, frame, rfl, keptToo⟩ := made
      obtain ⟨later, after, abandoned, keptLast⟩ := keptToo.abandonAll meanwhile.last
        fun handle member => by
          obtain ⟨deposit, known, same⟩ := concerns handle (List.mem_append_right _ member)
          exact ⟨deposit, List.mem_append_left _ known, same⟩
      have submitted : Acts (id.submitWhile meanwhile SpawnerId.scatterComputation
          (SpawnerId.scatterArguments table)).run world fleet (.ok (left, .ok (.frame frame))) later
            last :=
        Acts.bindOk prepared (Acts.bindOk performs (Acts.bindOk (Acts.lift abandoned) rfl))
      refine ⟨_, .ok frame, later, after, last, submitted, Acts.bindOk submitted rfl, ?_, keptLast,
        registeredToo.trans registered⟩
      intro deposit member
      cases frame with
      | collected table => cases member
      | distributed partitioned handle =>
        obtain rfl := List.mem_singleton.mp member
        exact List.mem_singleton_self handle

/-- Putting a table onto the workers keeps the record and adds the blocks to it. -/
theorem scatterWhile (custody : Custody id world spawner fleet deposits)
    (keeps : fleet.registry.KeepsTables) (meanwhile : Meanwhile)
    (concerns : meanwhile.Concerns deposits) (table : Batch) :
    ∃ answer later after last,
      Acts (id.scatterWhile meanwhile table).run world fleet answer later last ∧
      Custody id later after last (deposits ++ Deposit.ofBlocks table answer) ∧
      last.registry = fleet.registry := by
  obtain ⟨_, answer, later, after, last, -, acts, -, kept, registered⟩ :=
    custody.submitsScatter keeps meanwhile concerns table
  exact ⟨answer, later, after, last, acts, kept, registered⟩

end Custody

end Rankwise

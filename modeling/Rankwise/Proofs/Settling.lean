import Rankwise.Proofs.Marking
import Rankwise.Proofs.PartitionCalls

/-!
# Tables that are put onto the workers

Putting a table onto the workers is a call that leaves a block of it on every rank (`acts_scatter`).
A plan needs all tables that it scans there; a spawner is still in order when that was done
(`settle_inOrder`). Only a table that the coordinator holds is ever put onto workers: one that lies
on workers already is used where it lies, and one whose group has ended cannot be fetched any more
(`Handle.gather_lost`).
-/

namespace Rankwise

namespace Registry

/-- The workers keep tables that are put onto them. -/
structure KeepsTables (registry : Registry) : Prop where
  knows : registry.body Body.scatterName = .ok .scatter
  deep : 0 < registry.depthLimit

/-- A call of a computation that is known is a run of its body. -/
theorem call_of_knows (registry : Registry) (name : String) (body : Body)
    (knows : registry.body name = .ok body) (deep : 0 < registry.depthLimit) (context : CallContext)
    (given : Arguments) : ∃ invoke, registry.call context name given = body context invoke given := by
  obtain ⟨limit, same⟩ := Nat.exists_eq_add_of_le' deep
  refine ⟨registry.callWithin context limit, ?_⟩
  rw [call, same, callWithin, knows]
  rfl

end Registry

namespace SpawnerId

/-- The arguments with which a table is put onto the workers. -/
def scatterArguments (table : Batch) : CallArguments := { positional := [.value (.table table)] }

/-- A table on its own has no entries that could be out of order. -/
theorem scatterArguments_ordered (table : Batch) : (scatterArguments table).IsOrdered := by
  constructor
  · intro argument member
    obtain rfl := List.mem_singleton.mp member
    trivial
  · intro entry member
    exact absurd member List.not_mem_nil

/-- The call that puts a table onto the workers can be prepared. -/
theorem scatter_prepares (isLive : Handle → Bool) (table : Batch) :
    ∃ prepared, PreparedCall.prepare isLive scatterComputation (scatterArguments table) =
      .ok prepared := ⟨_, rfl⟩

/-- A rank keeps its block of a table that is put onto the workers. -/
theorem outcome?_scatter (registry : Registry) (keeps : registry.KeepsTables) (table : Batch)
    (isLive : Handle → Bool) (prepared : PreparedCall)
    (prepares : PreparedCall.prepare isLive scatterComputation (scatterArguments table) =
      .ok prepared)
    (size : Nat) (surroundings : List (String × String)) (stores : Nat → ResultStore) (rank : Nat) :
    Request.outcome? registry size surroundings scatterComputation (scatterArguments table) prepared
        stores rank =
      some (.ok (.distributed (table.block size rank)), stores rank) := by
  obtain rfl := Except.ok.inj prepares
  show ({ rank, size, registry } : Worker).run? _ Body.scatterName
    { positional := [.table (table.block size rank)] } (stores rank) = _
  rw [Worker.run?]
  obtain ⟨invoke, called⟩ := registry.call_of_knows Body.scatterName .scatter keeps.knows keeps.deep
    _ { positional := [.table (table.block size rank)] }
  rw [called]
  rfl

variable (id : SpawnerId) {world ready later : World} {fleet last : Fleet} {group : Group}
  {stores : Nat → ResultStore}

/-- Putting a table onto the workers gives the frame of its blocks. -/
theorem acts_scatter (begun : id.Ready world fleet ready last group stores)
    (keeps : last.registry.KeepsTables) (table : Batch) :
    Acts (id.scatter table).run world fleet
      (.ok (id.frameOf group ready (table.block group.size))) (id.afterCall group ready)
      (last.rest group (storedAfter ready (table.block group.size) stores)) := by
  obtain ⟨prepared, prepares⟩ := scatter_prepares ready.isLive table
  apply acts_callFrame id begun (scatterArguments_ordered table) prepares
  intro rank _
  exact outcome?_scatter last.registry keeps table ready.isLive prepared prepares group.size
    ready.environment stores rank

/-- A call that gives a frame leaves the spawner in sync and all else as it was. -/
theorem Ready.tends (begun : id.Ready world fleet ready last group stores)
    (partition : Nat → Batch) (later : Nat → ResultStore) :
    id.Tends world fleet (id.afterCall group ready)
      (last.rest group (storedAfter ready partition later)) := by
  apply begun.tended.trans
  exact {
    inSync := by
      intro other found
      obtain rfl := Option.some.inj ((group?_afterCall id begun.live).symm.trans found)
      exact ⟨begun.manned, begun.usable, _, Fleet.atRest_rest begun.rests.sized⟩
    registered := rfl
    kept := rfl
    spared := fun other => ready.counted.spawner?_change_of_ne id other _
    notes := fun notes => World.NotesGenerations.noted notes id group begun.live }

/-- Putting a table onto the workers leaves the spawner in sync and all else as it was. -/
theorem scatter_tends (inSync : world.InSync id fleet) (keeps : fleet.registry.KeepsTables)
    (table : Batch) (frame : Frame)
    (acts : Acts (id.scatter table).run world fleet (.ok frame) later last) :
    id.Tends world fleet later last := by
  obtain ⟨ready, between, group, stores, begun, -⟩ :=
    answered_of_callFrame id inSync (scatterArguments_ordered table) frame later last acts
  have made := acts_scatter id begun (begun.tended.registered.symm ▸ keeps) table
  obtain ⟨-, rfl, rfl⟩ := acts.unique made
  exact begun.tends id _ _

end SpawnerId

/-! Nothing is fetched from a group that has ended. -/

namespace Dialogue

variable {σ α : Type}

/-- What is true on all paths is true at the end of every run. -/
theorem always_run (outside : Outside σ) (holds : Bool → α → Prop) (dialogue : Dialogue α)
    (failed : Bool) (always : dialogue.Always holds failed) (state last : σ) (value : α)
    (ends : dialogue.run outside state = some (value, last)) : ∃ failed, holds failed value := by
  induction dialogue generalizing failed state with
  | done result =>
    obtain ⟨rfl, -⟩ := Prod.mk.inj (Option.some.inj ends)
    exact ⟨failed, always⟩
  | launch spawner request next inductionHypothesis =>
    obtain ⟨⟨answer, later⟩, -, ends⟩ := Option.bind_eq_some_iff.mp ends
    cases answer with
    | ok link => exact inductionHypothesis _ failed (always.1 link) later ends
    | error failure => exact inductionHypothesis _ true (always.2 failure) later ends
  | send link rank message next inductionHypothesis =>
    obtain ⟨⟨answer, later⟩, -, ends⟩ := Option.bind_eq_some_iff.mp ends
    cases answer with
    | ok _ => exact inductionHypothesis _ failed always.1 later ends
    | error failure => exact inductionHypothesis _ true (always.2 failure) later ends
  | receive link rank next inductionHypothesis =>
    obtain ⟨⟨answer, later⟩, -, ends⟩ := Option.bind_eq_some_iff.mp ends
    cases answer with
    | ok message => exact inductionHypothesis _ failed (always.1 message) later ends
    | error failure => exact inductionHypothesis _ true (always.2 failure) later ends
  | shutdown link next inductionHypothesis =>
    obtain ⟨⟨answer, later⟩, -, ends⟩ := Option.bind_eq_some_iff.mp ends
    cases answer with
    | ok _ => exact inductionHypothesis _ failed always.1 later ends
    | error failure => exact inductionHypothesis _ true (always.2 failure) later ends

end Dialogue

/-- To free a result of the own group keeps the law. -/
theorem Group.Law.keeps_freeOwn (law : Group.Law) (entry : Nat × ResultId) :
    law.Keeps (Group.freeOwn entry) := by
  apply Group.Law.Keeps.bind Group.Law.Keeps.look
  intro group
  split
  · exact Group.Law.Keeps.bind (law.keeps_deleteResult entry.2) fun _ => Group.Law.Keeps.pure ()
  · exact Group.Law.Keeps.pure ()

namespace SpawnerId

variable (id : SpawnerId) {world later : World} {fleet last : Fleet}

/-- Freeing results does not give a spawner another group. -/
theorem flush_generation (acts : Acts id.flush world fleet () later last) (group : Group)
    (live : later.group? id = some group) :
    ∃ before, world.group? id = some before ∧ before.generation = group.generation := by
  unfold Acts at acts
  rw [flush_cases] at acts
  cases found : world.spawner? id with
  | none =>
    rw [found] at acts
    obtain ⟨same, -⟩ := Prod.mk.inj (Option.some.inj acts)
    obtain ⟨-, rfl⟩ := Prod.mk.inj same
    exact ⟨group, live, rfl⟩
  | some spawner =>
    rw [found] at acts
    let empty (spawner : Spawner) : Spawner := { spawner with pending := [] }
    have kept : (world.change id empty).group? id = world.group? id :=
      world.group?_change_of_state id empty (fun _ => rfl) fun _ => rfl
    have talked : (((id.talk (spawner.pending.forM Group.freeOwn)).run
        (world.change id empty)).bind fun (_, after) => .done ((), after)).run Fleet.outside fleet =
          some (((), later), last) := acts
    cases running : (world.change id empty).group? id with
    | none =>
      rw [run_talk_none id _ _ running] at talked
      obtain ⟨same, -⟩ := Prod.mk.inj (Option.some.inj talked)
      obtain ⟨-, rfl⟩ := Prod.mk.inj same
      rw [running] at live
      cases live
    | some before =>
      rw [run_talk id _ _ before running, Dialogue.bind_assoc, Dialogue.run_bind] at talked
      obtain ⟨⟨⟨_, after⟩, between⟩, ended, noted⟩ := Option.bind_eq_some_iff.mp talked
      obtain ⟨same, -⟩ := Prod.mk.inj (Option.some.inj noted)
      obtain ⟨-, rfl⟩ := Prod.mk.inj same
      have keeps := Group.Law.Keeps.forEach spawner.pending Group.freeOwn
        (Group.Law.ofGeneration before.generation).keeps_freeOwn
      obtain ⟨_, generation⟩ := Dialogue.always_run Fleet.outside _ _ false (keeps before false rfl)
        fleet between ((), after) ended
      obtain rfl := Option.some.inj ((World.group?_noted _ id before after running).symm.trans live)
      exact ⟨before, kept ▸ running, generation.symm⟩

end SpawnerId

namespace Handle

/-- Fetches the table from the live group of the owner, whichever it is. -/
def gatherFrom (handle : Handle) : Coordinating Batch := do
  let answer ← (handle.owner.talk (Group.gatherResult handle.id).run :
    Acting (Option (Except Failure Batch)))
  (handle.owner.retireIfUnusable : Acting Unit)
  Coordinating.ofExcept (answer.getD (.error (ofEndedGroup handle.generation)))

/-- Fetches the table if its group is live. -/
def gatherLive (handle : Handle) : Coordinating Batch := do
  match (← get).group? handle.owner with
  | none => Coordinating.fail (ofEndedGroup handle.generation)
  | some group =>
    if group.generation ≠ handle.generation then
      Coordinating.fail (ofEndedGroup handle.generation)
    handle.gatherFrom

/-- To fetch a result frees what waits to be freed first, and refuses if the spawner is gone. -/
theorem gather_cases (handle : Handle) (world : World) :
    handle.gather.run.run world =
      (if (world.spawner? handle.owner).isNone then
        (Coordinating.fail SpawnerId.gone : Coordinating PUnit) >>= fun _ => do
          (handle.owner.flush : Acting Unit)
          handle.gatherLive
      else do
        (handle.owner.flush : Acting Unit)
        handle.gatherLive : Coordinating Batch).run.run world := rfl

/-- A result is fetched from the live group if it is of the generation of its handle. -/
theorem gatherLive_cases (handle : Handle) (world : World) :
    handle.gatherLive.run.run world =
      (match world.group? handle.owner with
      | none => Coordinating.fail (ofEndedGroup handle.generation)
      | some group =>
        if group.generation ≠ handle.generation then
          (Coordinating.fail (ofEndedGroup handle.generation) : Coordinating PUnit) >>= fun _ =>
            handle.gatherFrom
        else handle.gatherFrom : Coordinating Batch).run.run world := rfl

variable {world later : World} {fleet last : Fleet}

/-- A handle that does not belong to a live group does not belong to the group of its owner. -/
theorem generation_ne (handle : Handle) (notes : world.NotesGenerations)
    (lost : world.isLive handle = false) (group : Group)
    (live : world.group? handle.owner = some group) : group.generation ≠ handle.generation := by
  rw [World.group?_eq] at live
  obtain ⟨spawner, found, running⟩ := Option.bind_eq_some_iff.mp live
  have noted := notes handle.owner spawner found
  rw [running] at noted
  intro same
  rw [World.isLive, found] at lost
  have apart : ¬ spawner.liveGeneration = some handle.generation := by simpa using lost
  exact apart (noted.trans (congrArg some same))

/-- Nothing is fetched from a group that has ended. -/
theorem gather_lost (handle : Handle) (notes : world.NotesGenerations)
    (lost : world.isLive handle = false) (table : Batch) :
    ¬ Acts handle.gather.run world fleet (.ok table) later last := by
  intro acts
  unfold Acts at acts
  rw [gather_cases] at acts
  cases found : world.spawner? handle.owner with
  | none =>
    rw [found] at acts
    obtain ⟨_, _, _, failed, -⟩ := SpawnerId.acts_first acts
    cases SpawnerId.acts_ofExcept failed
  | some spawner =>
    rw [found] at acts
    obtain ⟨_, between, middle, flushed, fetched⟩ := SpawnerId.acts_first acts
    have freed := Acts.of_lift flushed
    unfold Acts at fetched
    rw [gatherLive_cases] at fetched
    cases live : between.group? handle.owner with
    | none =>
      rw [live] at fetched
      cases SpawnerId.acts_ofExcept fetched
    | some group =>
      obtain ⟨before, running, same⟩ := handle.owner.flush_generation freed group live
      have apart := generation_ne handle notes lost before running
      rw [live] at fetched
      dsimp only at fetched
      rw [if_pos (same ▸ apart)] at fetched
      obtain ⟨_, _, _, failed, -⟩ := SpawnerId.acts_first fetched
      cases SpawnerId.acts_ofExcept failed

end Handle

/-- The table of a frame that no group stores is fetched only if the coordinator holds it. -/
theorem Frame.table_lost {world later : World} {fleet last : Fleet} (frame : Frame)
    (notes : world.NotesGenerations) (lost : LazyTable.residentId? world frame = none)
    (table : Batch) (acts : Acts frame.table.run world fleet (.ok table) later last) :
    later = world ∧ last = fleet := by
  cases frame with
  | collected held =>
    obtain ⟨same, rfl⟩ := Prod.mk.inj (Option.some.inj acts)
    obtain ⟨-, rfl⟩ := Prod.mk.inj same
    exact ⟨rfl, rfl⟩
  | distributed partitioned handle =>
    cases live : world.isLive handle with
    | false => exact absurd acts (handle.gather_lost notes live table)
    | true =>
      rw [LazyTable.residentId?, Frame.residency, if_pos live] at lost
      cases lost

/-! What was put onto the workers before is given up. -/

namespace SpawnerId

variable (id : SpawnerId) {world later : World} {fleet last : Fleet}

/-- Changes apart from spawners and tables leave a spawner in sync. -/
theorem tends_of_spawners (inSync : world.InSync id fleet) (same : later.spawners = world.spawners)
    (kept : later.tables = world.tables) : id.Tends world fleet later fleet := by
  have found (other : SpawnerId) : later.spawner? other = world.spawner? other := by
    rw [World.spawner?, World.spawner?, same]
  exact {
    inSync := inSync.of_group (by rw [World.group?_eq, World.group?_eq, found])
    registered := rfl
    kept := kept
    spared := fun other _ => found other
    notes := fun notes other spawner there => notes other spawner (found other ▸ there) }

/-- Noting that a result is to be freed leaves a spawner in sync. -/
theorem notePending_tends (inSync : world.InSync id fleet) (generation : Nat) (result : ResultId) :
    ∃ later, Acts (id.notePending generation result) world fleet () later fleet ∧
      id.Tends world fleet later fleet := by
  let update (spawner : Spawner) : Spawner :=
    if spawner.liveGeneration = some generation then
      { spawner with pending := spawner.pending ++ [(generation, result)] }
    else spawner
  have shared (spawner : Spawner) : (update spawner).owners = spawner.owners := by
    simp only [update]
    split <;> rfl
  have state (spawner : Spawner) : (update spawner).state = spawner.state := by
    simp only [update]
    split <;> rfl
  refine ⟨world.change id update, rfl, ?_⟩
  exact {
    inSync := inSync.of_group (world.group?_change_of_state id update shared state)
    registered := rfl
    kept := rfl
    spared := fun other => world.spawner?_change_of_ne id other update
    notes := fun notes => notes.change_of_state id update shared
      (fun spawner => by rw [Spawner.live?, Spawner.live?, state spawner])
      fun spawner => by simp only [update]; split <;> rfl }

/-- A result of the live generation is noted as waiting to be freed, and then freed if it can be. -/
theorem free_cases (generation : Nat) (result : ResultId) (world : World) :
    (id.free generation result).run world = (match world.spawner? id with
      | none => Pure.pure ()
      | some spawner => do
        if spawner.liveGeneration = some generation then
          id.notePending generation result
          id.flush : Acting Unit).run world := rfl

/-- Freeing a result leaves a spawner in sync, its own or one whose results are not concerned. -/
theorem free_tends (owner : SpawnerId) (inSync : world.InSync id fleet) (generation : Nat)
    (result : ResultId)
    (apart : owner ≠ id → ∀ spawner, world.spawner? owner = some spawner →
      spawner.liveGeneration ≠ some generation) :
    ∃ later last, Acts (owner.free generation result) world fleet () later last ∧
      id.Tends world fleet later last := by
  unfold Acts
  rw [free_cases]
  cases found : world.spawner? owner with
  | none => exact ⟨world, fleet, rfl, .refl inSync⟩
  | some spawner =>
    dsimp only
    split
    case isFalse => exact ⟨world, fleet, rfl, .refl inSync⟩
    case isTrue live =>
      by_cases own : owner = id
      · subst own
        obtain ⟨noted, acts, tends⟩ := notePending_tends owner inSync generation result
        obtain ⟨later, last, flushed, again, -⟩ := flush_inSync owner tends.inSync
        exact ⟨later, last, Acts.bind acts flushed, tends.trans again⟩
      · exact absurd live (apart own spawner found)

/-- To give up a share frees the result if no other share is left. -/
theorem release_cases (handle : Handle) (world : World) :
    handle.release.run world = (match world.shares[handle.key]? with
      | some (others + 1) => do
        modify fun world => { world with shares := world.shares.set handle.key others }
        if others = 0 then handle.owner.free handle.generation handle.id
      | _ => Pure.pure () : Acting Unit).run world := rfl

/-- Giving up a handle leaves a spawner in sync, its own or one whose results are not concerned. -/
theorem release_tends (handle : Handle) (inSync : world.InSync id fleet)
    (apart : handle.owner ≠ id → world.isLive handle = false) :
    ∃ later last, Acts handle.release world fleet () later last ∧ id.Tends world fleet later last := by
  unfold Acts
  rw [release_cases]
  split
  case h_1 others counted =>
    let lessened : World := { world with shares := world.shares.set handle.key others }
    have tends : id.Tends world fleet lessened fleet := tends_of_spawners id inSync rfl rfl
    have changed : Acts (modify fun world => { world with
      shares := world.shares.set handle.key others } : Acting Unit) world fleet () lessened fleet := rfl
    by_cases lastOne : others = 0
    · have elsewhere (other : handle.owner ≠ id) (spawner : Spawner)
          (found : lessened.spawner? handle.owner = some spawner) :
          spawner.liveGeneration ≠ some handle.generation := by
        have lost := apart other
        rw [World.isLive, show world.spawner? handle.owner = some spawner from found] at lost
        simpa using lost
      obtain ⟨later, last, freed, again⟩ :=
        free_tends id handle.owner tends.inSync handle.generation handle.id elsewhere
      refine ⟨later, last, Acts.bind changed ?_, tends.trans again⟩
      rw [if_pos lastOne]
      exact freed
    · refine ⟨lessened, fleet, Acts.bind changed ?_, tends⟩
      rw [if_neg lastOne]
      exact Acts.pure () lessened fleet
  case h_2 => exact ⟨world, fleet, rfl, .refl inSync⟩

end SpawnerId

namespace SpawnerId

/-- The spawner can be called: nothing is unread from its live group, and its workers keep tables.
-/
structure InOrder (id : SpawnerId) (world : World) (fleet : Fleet) : Prop where
  inSync : world.InSync id fleet
  notes : world.NotesGenerations
  keeps : fleet.registry.KeepsTables

variable {id : SpawnerId} {world later : World} {fleet last : Fleet}

/-- A spawner that is tended stays in order. -/
theorem Tends.inOrder (tends : id.Tends world fleet later last) (before : id.InOrder world fleet) :
    id.InOrder later last where
  inSync := tends.inSync
  notes := tends.notes before.notes
  keeps := tends.registered.symm ▸ before.keeps

/-- What is kept for later does not matter to whether the spawner can be called. -/
theorem InOrder.keeping (before : id.InOrder world fleet) (tables : List PendingTable) :
    id.InOrder { world with tables } fleet where
  inSync := before.inSync.of_group rfl
  notes := before.notes
  keeps := before.keeps

end SpawnerId

namespace LazyTable

variable {id : SpawnerId} {world later : World} {fleet last : Fleet}

/-- A copy on workers that was put there before is given up, unless it is still to be used. -/
theorem giveUp_tends (copy : Option Frame) (inSync : world.InSync id fleet)
    (apart : ∀ handle ∈ copy.bind Frame.handle?, handle.owner ≠ id → world.isLive handle = false) :
    ∃ later last, Acts (copy.forM Frame.release) world fleet () later last ∧
      id.Tends world fleet later last := by
  cases copy with
  | none => exact ⟨world, fleet, rfl, .refl inSync⟩
  | some frame =>
    cases frame with
    | collected table => exact ⟨world, fleet, rfl, .refl inSync⟩
    | distributed partitioned handle =>
      exact SpawnerId.release_tends id handle inSync (apart handle rfl)

/-- A frame that no group stores has no handle of a live group. -/
theorem isLive_of_lost (frame : Frame) (lost : residentId? world frame = none) (handle : Handle)
    (found : handle ∈ frame.handle?) : world.isLive handle = false := by
  cases frame with
  | collected table => cases found
  | distributed partitioned own =>
    obtain rfl := Option.some.inj found
    cases live : world.isLive own with
    | false => rfl
    | true =>
      rw [residentId?, Frame.residency, if_pos live] at lost
      cases lost

/-- When a kept table is put onto the workers, the spawner stays in order. -/
theorem scatterPending_inOrder (key : LazyKey) (kept : PendingTable)
    (before : id.InOrder world fleet) (lost : residentId? world kept.frame = none)
    (lostToo : kept.scattered.bind (residentId? world) = none) (name : ResultId)
    (acts : Acts (scatterPending id key kept).run world fleet (.ok name) later last) :
    id.InOrder later last ∧ last.registry = fleet.registry := by
  obtain ⟨table, _, _, fetched, further⟩ := SpawnerId.acts_first acts
  obtain ⟨rfl, rfl⟩ := kept.frame.table_lost before.notes lost table fetched
  obtain ⟨frame, between, middle, scattered, noted⟩ := SpawnerId.acts_first further
  have tends := id.scatter_tends before.inSync before.keeps table frame scattered
  have after := tends.inOrder before
  cases named : frame.resultId? with
  | none =>
    rw [named] at noted
    cases SpawnerId.acts_ofExcept noted
  | some found =>
    rw [named] at noted
    obtain ⟨_, changed, _, change, released⟩ := SpawnerId.acts_first noted
    obtain ⟨-, rfl, rfl⟩ := Acts.unique change rfl
    obtain ⟨_, final, rest, gaveUp, done⟩ := SpawnerId.acts_first released
    obtain ⟨-, rfl, rfl⟩ := Acts.unique done rfl
    have keeping := after.keeping (between.tables.modify key.index fun kept =>
      { kept with scattered := some frame })
    obtain ⟨_, _, freed, again⟩ := giveUp_tends kept.scattered keeping.inSync (by
      intro handle found elsewhere
      obtain ⟨copy, stored, owned⟩ := Option.bind_eq_some_iff.mp found
      rw [stored] at lostToo
      have dead := isLive_of_lost copy lostToo handle owned
      rw [World.isLive] at dead ⊢
      exact tends.spared handle.owner elsewhere ▸ dead)
    obtain ⟨-, rfl, rfl⟩ := (Acts.of_lift gaveUp).unique freed
    exact ⟨again.inOrder keeping, again.registered.trans tends.registered⟩

/-- Notes under which name a table was put onto the workers. -/
def note (key : LazyKey) (name : ResultId) : Coordinating ResultId := do
  modify fun world => { world with
    tables := world.tables.modify key.index fun kept => { kept with id := some name } }
  return name

/-- How a table is made sure of that the coordinator keeps. -/
def settleKept (id : SpawnerId) (key : LazyKey) (kept : PendingTable) (world : World) :
    Coordinating ResultId :=
  match residentId? world kept.frame, kept.scattered.bind (residentId? world) with
  | some name, _ => note key name
  | none, some name => note key name
  | none, none => scatterPending id key kept >>= note key

/-- To settle a lazy table settles what is kept under its key, and fails on a worker. -/
theorem settle_cases (key : LazyKey) (world : World) :
    (settle id (pending key)).run.run world =
      (match world.tables[key.index]? with
      | some kept => settleKept id key kept world
      | _ => Coordinating.fail onWorker : Coordinating ResultId).run.run world := rfl

/-- A spawner is still in order when a table was made sure of. -/
theorem settle_inOrder (table : LazyTable) (before : id.InOrder world fleet) (name : ResultId)
    (acts : Acts (table.settle id).run world fleet (.ok name) later last) :
    id.InOrder later last ∧ last.registry = fleet.registry := by
  cases table with
  | stored found => cases SpawnerId.acts_ofExcept acts
  | pending key =>
    unfold Acts at acts
    rw [settle_cases] at acts
    cases found : world.tables[key.index]? with
    | none =>
      rw [found] at acts
      cases SpawnerId.acts_ofExcept acts
    | some kept =>
      rw [found] at acts
      have settled : Acts (settleKept id key kept world).run world fleet (.ok name) later last := acts
      unfold settleKept at settled
      split at settled
      case h_1 =>
        obtain ⟨-, rfl, rfl⟩ := Acts.unique settled rfl
        exact ⟨before.keeping _, rfl⟩
      case h_2 =>
        obtain ⟨-, rfl, rfl⟩ := Acts.unique settled rfl
        exact ⟨before.keeping _, rfl⟩
      case h_3 lost lostToo =>
        obtain ⟨named, between, middle, made, noted⟩ := SpawnerId.acts_first settled
        obtain ⟨after, registered⟩ := scatterPending_inOrder key kept before lost lostToo named made
        obtain ⟨-, rfl, rfl⟩ := Acts.unique noted rfl
        exact ⟨after.keeping _, registered⟩

end LazyTable

end Rankwise

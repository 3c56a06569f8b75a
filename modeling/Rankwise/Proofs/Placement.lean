import Rankwise.Proofs.Meanwhile
import Rankwise.Proofs.Rows

/-!
# Where tables lie

A group with a known number of workers can be made ready (`Custody.readies`), and a call in which
every rank comes to a partition gives a frame of these, which then lie in custody
(`Custody.callFrame`).

The coordinator can keep a table until the workers need it. `World.Provides` says where such a table
may lie: with the coordinator, at most with copies on the workers, or on the ranks of the live
group. In each case the whole table is the same as the portions of all ranks, the coordinator can
get it (`Custody.fetchKept`), and once it is made sure of, the ranks of the live group store their
portions under its name (`Custody.settles`).
-/

namespace Rankwise

/-- The group of the spawner has so many workers, or is to have them when it is started. -/
structure SpawnerId.Musters (id : SpawnerId) (world : World) (size : Nat) : Prop where
  live : ∀ group, world.group? id = some group → group.size = size
  idle : ∀ spawner, world.spawner? id = some spawner → world.group? id = none →
    SpawnerId.workers? spawner world = .ok size

/-- The live group has so many workers. It is the one that was live before, if there was one, and a
newer one than all before it, if there was none. Which handles there are and what is kept for the
workers is as it was. -/
structure SpawnerId.Readied (id : SpawnerId) (world ready : World) (size : Nat) (group : Group) :
    Prop where
  live : ready.group? id = some group
  sized : group.size = size
  same : ∀ before, world.group? id = some before → before = group
  newer : ∀ spawner, world.spawner? id = some spawner → world.group? id = none →
    spawner.lastGeneration < group.generation
  shares : ready.shares = world.shares
  tables : ready.tables = world.tables

namespace Custody

variable {id : SpawnerId} {world : World} {spawner : Spawner} {fleet : Fleet}
  {deposits : List Deposit} {size : Nat}

/-- A group is made ready. -/
theorem readies (custody : Custody id world spawner fleet deposits) (musters : id.Musters world size) :
    ∃ ready after last group, Acts id.prepare.run world fleet (.ok ()) ready last ∧
      Custody id ready after last deposits ∧ last.registry = fleet.registry ∧
      id.Readied world ready size group := by
  cases live : spawner.live? with
  | some group =>
    have running := custody.group?_eq.trans live
    obtain ⟨last, flushed, kept, registered⟩ := custody.flush
    have ensured : Acts id.ensureGroup.run world fleet (.ok ()) world fleet := by
      unfold Acts
      rw [id.run_ensureGroup_live world group running]
      rfl
    refine ⟨_, _, last, group, Acts.bindOk ensured (Acts.lift flushed), kept, registered, ?_⟩
    exact {
      live := (world.group?_emptied id).trans running
      sized := musters.live group running
      same := fun before runningToo => Option.some.inj (runningToo.symm.trans running)
      newer := fun _ _ idle => by cases idle.symm.trans running
      shares := rfl
      tables := rfl }
  | none =>
    have idle := custody.group?_eq.trans live
    have count := musters.idle spawner custody.found idle
    let group : Group := {
      link := ⟨fleet.sizes.length⟩, size, generation := spawner.lastGeneration + 1 }
    have kept := custody.manned live group (Environment.workerCount_pos _ _ _ _ count) rfl rfl _
      (fleet.atRest_launch (SpawnerId.request spawner size world) (spawner.lastGeneration + 1))
    have ensured : Acts id.ensureGroup.run world fleet (.ok ()) (id.manned spawner group world)
        (fleet.launch (SpawnerId.request spawner size world)) := by
      unfold Acts
      rw [id.run_ensureGroup_launch world spawner custody.found idle, id.run_launch, count]
      rfl
    obtain ⟨last, flushed, keptToo, registered⟩ := kept.flush
    refine ⟨_, _, last, group, Acts.bindOk ensured (Acts.lift flushed), keptToo, registered, ?_⟩
    exact {
      live := (World.group?_emptied _ id).trans (id.group?_manned spawner group world custody.found)
      sized := rfl
      same := fun before running => by cases idle.symm.trans running
      newer := fun known found _ => by
        obtain rfl := Option.some.inj (found.symm.trans custody.found)
        exact Nat.lt_succ_self _
      shares := rfl
      tables := rfl }

variable {group : Group} {computation : Computation} {arguments : CallArguments}

/-- Behind `prepare`, a call in which every rank comes to a partition gives the frame of these. -/
theorem performPartition (custody : Custody id world spawner fleet deposits)
    (live : world.group? id = some group) (ordered : arguments.IsOrdered) {prepared : PreparedCall}
    (prepares : PreparedCall.prepare world.isLive computation arguments = .ok prepared)
    (partition : Nat → Batch)
    (answered : ∀ stores, fleet.AtRest group stores → ∀ rank < group.size,
      Request.outcome? fleet.registry group.size world.environment computation arguments prepared
        stores rank = some (.ok (.distributed (partition rank)), stores rank)) :
    ∃ left last, Acts (id.perform computation arguments).run world fleet
        (.ok (left, .ok (.frame (id.frameOf group world partition)))) (id.afterCall group world) last ∧
      Custody id (id.afterCall group world) spawner last
        (deposits ++ Deposit.ofHandles (fun rank => .ok (.distributed (partition rank)))
          (SpawnerId.handed (.ok (left, .ok (.frame (id.frameOf group world partition)))))) ∧
      last.registry = fleet.registry := by
  obtain ⟨manned, usable, -, stores, rests, -⟩ :=
    custody.attended group (custody.group?_eq.symm.trans live)
  obtain ⟨left, made⟩ := SpawnerId.acts_perform_partition id live manned usable rests ordered prepares
    partition stores (answered stores rests)
  have comes : id.ComesTo computation arguments world fleet
      fun rank => .ok (.distributed (partition rank)) := {
    ordered
    answered := fun other othersStores preparedToo liveToo restsToo preparesToo => by
      obtain rfl := Option.some.inj (live.symm.trans liveToo)
      obtain rfl := Except.ok.inj (prepares.symm.trans preparesToo)
      exact answered othersStores restsToo
    alike := fun _ _ _ _ _ _ output another came cameToo => by
      obtain rfl := Except.ok.inj came
      obtain rfl := Except.ok.inj cameToo
      rfl }
  obtain ⟨result, later, last, performs, kept, registered, -⟩ := custody.perform _ _ _ comes
  obtain ⟨rfl, rfl, rfl⟩ := performs.unique made
  exact ⟨left, _, made, kept, registered⟩

end Custody

/-- The result that was handed out lies on the ranks of the live group, and somebody has a share of
it. -/
structure Deposit.IsThere (deposit : Deposit) (id : SpawnerId) (world : World)
    (deposits : List Deposit) : Prop where
  member : deposit ∈ deposits
  held : world.IsHeld deposit.handle
  live : ∃ group, world.group? id = some group ∧ deposit.handle.generation = group.generation

/-- Coordinator and workers stand to the record as they should, and one of the results that were
handed out consists of these partitions and lies on the ranks of the live group, which has so many.
-/
structure SpawnerId.Placed (id : SpawnerId) (size : Nat) (partition : Nat → Batch)
    (deposits : List Deposit) (deposit : Deposit) (world : World) (spawner : Spawner) (fleet : Fleet) :
    Prop where
  custody : Custody id world spawner fleet deposits
  computed : deposit.partition = partition
  isThere : deposit.IsThere id world deposits
  musters : id.Musters world size

namespace Custody

variable {id : SpawnerId} {world : World} {spawner : Spawner} {fleet : Fleet}
  {deposits : List Deposit} {size : Nat} {computation : Computation} {arguments : CallArguments}

/-- What was handed out belongs to a live group if it is of the generation of the live group. -/
theorem isLive_iff (custody : Custody id world spawner fleet deposits) {deposit : Deposit}
    (member : deposit ∈ deposits) : world.isLive deposit.handle = true ↔
      ∃ group, world.group? id = some group ∧ deposit.handle.generation = group.generation := by
  rw [World.isLive, (custody.recorded deposit member).owned, custody.found, custody.group?_eq]
  simp only [Option.any_some, custody.noted, decide_eq_true_eq, Option.map_eq_some_iff]
  exact exists_congr fun group => and_congr_right fun _ => eq_comm

/-- A call in which every rank comes to a partition gives a frame of these, and they lie in custody
then. What belonged to no live group before does not belong to one now. -/
theorem callFrame (custody : Custody id world spawner fleet deposits)
    (musters : id.Musters world size) (ordered : arguments.IsOrdered)
    (prepares : ∀ isLive, ∃ prepared,
      PreparedCall.prepare isLive computation arguments = .ok prepared)
    (partition : Nat → Batch)
    (answered : ∀ ready after last group, Custody id ready after last deposits →
      id.Readied world ready size group → last.registry = fleet.registry → ∀ prepared,
        PreparedCall.prepare ready.isLive computation arguments = .ok prepared → ∀ stores,
          last.AtRest group stores → ∀ rank < group.size,
            Request.outcome? last.registry group.size ready.environment computation arguments prepared
              stores rank = some (.ok (.distributed (partition rank)), stores rank)) :
    ∃ partitioned deposit later after last,
      Acts (id.callFrame computation arguments).run world fleet
        (.ok (.distributed partitioned deposit.handle)) later last ∧
      id.Placed size partition (deposits ++ [deposit]) deposit later after last ∧
      last.registry = fleet.registry ∧ later.tables = world.tables ∧
      ∀ other ∈ deposits, world.isLive other.handle = false → later.isLive other.handle = false := by
  obtain ⟨ready, after, middle, group, prepare, kept, registered, readied⟩ := custody.readies musters
  obtain ⟨prepared, prepares⟩ := prepares ready.isLive
  obtain ⟨left, last, performs, keptToo, registeredToo⟩ := kept.performPartition readied.live ordered
    prepares partition (answered ready after middle group kept readied registered prepared prepares)
  have live := SpawnerId.group?_afterCall id readied.live
  have submitted : Acts (id.submit computation arguments).run world fleet
      (.ok (left, .ok (.frame (id.frameOf group ready partition)))) (id.afterCall group ready) last := by
    rw [SpawnerId.submit_eq]
    exact Acts.bindOk prepare performs
  -- A result that was lost before is not found again: the live group is the same or a newer one.
  refine ⟨_, { handle := _, partition }, _, after, last, Acts.bindOk submitted rfl,
    ⟨keptToo, rfl, ?_, ?_⟩, registeredToo.trans registered, readied.tables, ?_⟩
  · refine ⟨List.mem_append_right _ (List.mem_singleton_self _), ⟨0, ?_⟩, group, live, rfl⟩
    exact List.getElem?_concat_length
  · refine ⟨fun other running => ?_, fun _ _ idle => ?_⟩
    · obtain rfl := Option.some.inj (running.symm.trans live)
      exact readied.sized
    · cases idle.symm.trans live
  · intro other member lost
    by_contra stays
    obtain ⟨running, found, own⟩ := (keptToo.isLive_iff (List.mem_append_left _ member)).mp
      (Bool.of_not_eq_false stays)
    obtain rfl := Option.some.inj (found.symm.trans live)
    cases before : world.group? id with
    | some earlier =>
      obtain rfl := readied.same earlier before
      rw [(custody.isLive_iff member).mpr ⟨earlier, before, own⟩] at lost
      cases lost
    | none =>
      have newer := readied.newer spawner custody.found before
      have dated := (custody.recorded other member).dated
      omega

/-- Putting a table onto the workers leaves its blocks in custody. -/
theorem scatter (custody : Custody id world spawner fleet deposits)
    (keeps : fleet.registry.KeepsTables) (musters : id.Musters world size) (table : Batch) :
    ∃ partitioned deposit later after last,
      Acts (id.scatter table).run world fleet (.ok (.distributed partitioned deposit.handle)) later
        last ∧
      id.Placed size (table.block size) (deposits ++ [deposit]) deposit later after last ∧
      last.registry = fleet.registry ∧ later.tables = world.tables ∧
      ∀ other ∈ deposits, world.isLive other.handle = false → later.isLive other.handle = false := by
  refine custody.callFrame musters (SpawnerId.scatterArguments_ordered table)
    (fun isLive => SpawnerId.scatter_prepares isLive table) (table.block size) ?_
  intro ready after last group kept readied registered prepared prepares stores rests rank inside
  rw [← readied.sized]
  exact SpawnerId.outcome?_scatter last.registry (registered.symm ▸ keeps) table ready.isLive prepared
    prepares group.size ready.environment stores rank

end Custody

/-! Tables that are kept until the workers need them. -/

/-- Where the table that is kept under a key lies: all of it, and the portions of the ranks. -/
inductive World.Provides (world : World) (id : SpawnerId) (deposits : List Deposit) (size : Nat)
    (key : LazyKey) : Batch → (Nat → Batch) → Prop
  /-- The coordinator has the table. A copy of it that was put onto workers before belongs to this
  spawner, and it consists of the blocks if its group is still live. -/
  | collected (kept : PendingTable) (table : Batch) (there : world.tables[key.index]? = some kept)
      (here : kept.frame = .collected table)
      (copies : ∀ copy ∈ kept.scattered, ∃ deposit ∈ deposits, copy.handle? = some deposit.handle ∧
        world.IsHeld deposit.handle ∧
        (world.isLive deposit.handle = true → deposit.partition = table.block size)) :
      world.Provides id deposits size key table (table.block size)
  /-- The table lies on the ranks of the live group. -/
  | resident (kept : PendingTable) (partitioned : Partitioned) (deposit : Deposit)
      (there : world.tables[key.index]? = some kept)
      (lies : kept.frame = .distributed partitioned deposit.handle)
      (isThere : deposit.IsThere id world deposits)
      (alike : Group.AreAlike size deposit.partition) :
      world.Provides id deposits size key (Group.whole size deposit.partition) deposit.partition

/-- The portions of all ranks make up the whole table. -/
theorem World.Provides.rows {world : World} {id : SpawnerId} {deposits : List Deposit} {size : Nat}
    {key : LazyKey} {whole : Batch} {portion : Nat → Batch}
    (provides : world.Provides id deposits size key whole portion) (manned : 0 < size) :
    ((List.range size).map portion).flatMap Batch.rowList = whole.rowList := by
  cases provides with
  | collected => exact whole.rowList_blocks size manned
  | resident _ _ deposit _ _ _ alike => exact (Group.rowList_whole size deposit.partition alike).symm

/-- A table that is kept is fetched for whoever needs it here. -/
theorem LazyTable.localTable_cases (key : LazyKey) (world : World) :
    (localTable (pending key)).run.run world = (match world.tables[key.index]? with
      | some kept => kept.frame.table
      | _ => Coordinating.fail onWorker : Coordinating Batch).run.run world := rfl

/-- The handle of the result that is used for a kept table without putting it onto workers. -/
def PendingTable.resident? (kept : PendingTable) (world : World) : Option Handle :=
  (kept.frame.handle?.filter world.isLive).or
    ((kept.scattered.bind Frame.handle?).filter world.isLive)

namespace PendingTable

variable {kept : PendingTable} {world : World} {handle : Handle}

/-- A handle that is used belongs to a live group. -/
theorem resident?_cases (used : kept.resident? world = some handle) :
    world.isLive handle = true ∧ (kept.frame.handle? = some handle ∨
      ∃ copy ∈ kept.scattered, copy.handle? = some handle) := by
  rcases Option.or_eq_some_iff.mp used with own | ⟨-, copied⟩
  · obtain ⟨own, live⟩ := Option.filter_eq_some_iff.mp own
    exact ⟨live, .inl own⟩
  · obtain ⟨copied, live⟩ := Option.filter_eq_some_iff.mp copied
    obtain ⟨copy, member, own⟩ := Option.bind_eq_some_iff.mp copied
    exact ⟨live, .inr ⟨copy, member, own⟩⟩

/-- If none is used, the copy on the workers belongs to no live group. -/
theorem isLive_of_copy (unused : kept.resident? world = none) {copy : Frame}
    (member : copy ∈ kept.scattered) (own : copy.handle? = some handle) :
    world.isLive handle = false := by
  have copied := (Option.or_eq_none_iff.mp unused).2
  rw [Option.mem_def.mp member, Option.bind_some, own] at copied
  simpa using copied

end PendingTable

namespace LazyTable

/-- A frame is on the workers under the name of its handle, if this belongs to a live group. -/
theorem residentId?_eq (world : World) (frame : Frame) :
    residentId? world frame = (frame.handle?.filter world.isLive).map Handle.id := by
  cases frame with
  | collected table => rfl
  | distributed partitioned handle =>
    rw [residentId?, Frame.residency, Frame.handle?]
    cases live : world.isLive handle <;> simp [live]

/-- A kept table is used where it lies, or it is put onto the workers of the spawner. -/
theorem settleKept_eq (id : SpawnerId) (key : LazyKey) (kept : PendingTable) (world : World) :
    settleKept id key kept world = match kept.resident? world with
      | some handle => note key handle.id
      | none => scatterPending id key kept >>= note key := by
  have copies : kept.scattered.bind (residentId? world) =
      ((kept.scattered.bind Frame.handle?).filter world.isLive).map Handle.id := by
    cases kept.scattered with
    | none => rfl
    | some copy => exact residentId?_eq world copy
  rw [settleKept, copies, residentId?_eq, PendingTable.resident?]
  cases kept.frame.handle?.filter world.isLive <;>
    cases (kept.scattered.bind Frame.handle?).filter world.isLive <;> rfl

end LazyTable

/-- The coordinator after it noted the copy of a kept table that was put onto workers. -/
def World.copying (world : World) (key : LazyKey) (copy : Frame) : World :=
  { world with tables := world.tables.modify key.index fun kept => { kept with scattered := some copy } }

/-- A table that the coordinator has is put onto workers, and the copy from before is given up. -/
theorem LazyTable.acts_scatterPending {id : SpawnerId} {key : LazyKey} {kept : PendingTable}
    {table : Batch} {partitioned : Partitioned} {handle : Handle} {world between later : World}
    {fleet middle last : Fleet} (here : kept.frame = .collected table)
    (scattered : Acts (id.scatter table).run world fleet (.ok (.distributed partitioned handle)) between
      middle)
    (gaveUp : Acts (kept.scattered.forM Frame.release)
      (between.copying key (.distributed partitioned handle)) middle () later last) :
    Acts (scatterPending id key kept).run world fleet (.ok handle.id) later last := by
  have fetched : Acts kept.frame.table.run world fleet (.ok table) world fleet := by
    rw [here]
    rfl
  exact Acts.bindOk fetched (Acts.bindOk scattered (Acts.bindOk rfl
    (Acts.bindOk (Acts.lift gaveUp) rfl)))

/-- The coordinator after it noted under which name a kept table lies on the workers. -/
def World.named (world : World) (key : LazyKey) (name : ResultId) : World :=
  { world with tables := world.tables.modify key.index fun kept => { kept with id := some name } }

/-- A table that was given a name has it. -/
theorem World.names_named (world : World) {key : LazyKey} (name : ResultId)
    (inside : key.index < world.tables.length) : (world.named key name).names key = some name := by
  show ((world.tables.modify key.index _)[key.index]?).bind PendingTable.id = some name
  rw [List.getElem?_modify_eq, List.getElem?_eq_getElem inside]
  rfl

/-- The table that is kept under a key is found on the workers behind this handle. -/
def World.Finds (world : World) (key : LazyKey) (frame : Frame) (handle : Handle) : Prop :=
  ∃ kept, world.tables[key.index]? = some kept ∧ kept.frame = frame ∧
    kept.resident? world = some handle

/-- A table that is found is one that is kept. -/
theorem World.Finds.inside {world : World} {key : LazyKey} {frame : Frame} {handle : Handle}
    (finds : world.Finds key frame handle) : key.index < world.tables.length := by
  obtain ⟨_, there, -⟩ := finds
  exact (List.getElem?_eq_some_iff.mp there).1

/-- A table that is found is used where it lies: nothing is asked of the workers, and only the name
is noted. -/
theorem LazyTable.settle_found (id : SpawnerId) {key : LazyKey} {world : World} {frame : Frame}
    {handle : Handle} (finds : world.Finds key frame handle) :
    ((pending key).settle id).run.run world = .done (.ok handle.id, world.named key handle.id) ∧
      (world.named key handle.id).Finds key frame handle := by
  obtain ⟨kept, there, rfl, used⟩ := finds
  constructor
  · rw [settle_cases, there]
    dsimp only
    rw [settleKept_eq, used]
    rfl
  · refine ⟨{ kept with id := some handle.id }, ?_, rfl, used⟩
    rw [World.named, List.getElem?_modify_eq, there]
    rfl

namespace Custody

variable {id : SpawnerId} {world : World} {spawner : Spawner} {fleet : Fleet}
  {deposits : List Deposit} {size : Nat} {key : LazyKey} {whole : Batch} {portion : Nat → Batch}

/-- The coordinator can get the whole table. -/
theorem fetchKept (custody : Custody id world spawner fleet deposits)
    (musters : id.Musters world size)
    (provides : world.Provides id deposits size key whole portion) :
    ∃ later last, Acts (LazyTable.pending key).localTable.run world fleet (.ok whole) later last := by
  unfold Acts
  rw [LazyTable.localTable_cases]
  cases provides with
  | collected kept _ there here =>
    rw [there]
    dsimp only
    rw [here]
    exact ⟨world, fleet, rfl⟩
  | resident kept partitioned deposit there lies isThere alike =>
    rw [there]
    dsimp only
    rw [lies]
    obtain ⟨member, held, group, live, own⟩ := isThere
    obtain ⟨answer, -, last, fetched, -, -, joins⟩ := custody.gather deposit member
    have manned := (custody.attended group (custody.group?_eq.symm.trans live)).manned
    rw [joins held group live own, musters.live group live, Group.joinPartitions_alike size
      (musters.live group live ▸ manned) deposit.partition alike] at fetched
    exact ⟨_, last, fetched⟩

/-- What is kept for the workers has no part in the record. -/
theorem keeping (custody : Custody id world spawner fleet deposits) (tables : List PendingTable) :
    Custody id { world with tables } spawner fleet deposits :=
  custody.of_held custody.found (Nat.le_refl _) (Nat.le_refl _) fun _ _ => Iff.rfl

/-- Giving up a share of what belongs to no live group changes nothing but how many there are. -/
theorem releaseLost (custody : Custody id world spawner fleet deposits) (deposit : Deposit)
    (member : deposit ∈ deposits) (lost : world.isLive deposit.handle = false) :
    ∃ shares after, Acts deposit.handle.release world fleet () { world with shares } fleet ∧
      Custody id { world with shares } after fleet deposits ∧
      ∀ other ∈ deposits, other ≠ deposit → world.IsHeld other.handle →
        ({ world with shares } : World).IsHeld other.handle := by
  have owned := (custody.recorded deposit member).owned
  obtain ⟨_, after, _, released, kept, -⟩ := custody.release deposit member
  have stays (shares : List Nat)
      (acts : Acts deposit.handle.release world fleet () { world with shares } fleet) :
      Custody id { world with shares } after fleet deposits := by
    obtain ⟨-, rfl, rfl⟩ := released.unique acts
    exact kept
  have apart : spawner.liveGeneration ≠ some deposit.handle.generation := by
    rw [World.isLive, owned, custody.found] at lost
    simpa using lost
  have unchanged (same : (deposit.handle.release.run world) = .done ((), world)) :
      Acts deposit.handle.release world fleet () { world with shares := world.shares } fleet := by
    unfold Acts
    rw [same]
    rfl
  rcases counted : world.shares[deposit.handle.key]? with _ | _ | others
  · have acts := unchanged (by rw [SpawnerId.release_cases, counted]; rfl)
    exact ⟨_, after, acts, stays _ acts, fun _ _ _ held => held⟩
  · have acts := unchanged (by rw [SpawnerId.release_cases, counted]; rfl)
    exact ⟨_, after, acts, stays _ acts, fun _ _ _ held => held⟩
  · have acts : Acts deposit.handle.release world fleet () (world.leaving deposit.handle others)
        fleet := by
      have lessened : Acts (modify fun world => { world with
        shares := world.shares.set deposit.handle.key others } : Acting Unit) world fleet ()
          (world.leaving deposit.handle others) fleet := rfl
      unfold Acts
      rw [SpawnerId.release_cases, counted]
      refine Acts.bind lessened ?_
      by_cases lastOne : others = 0
      · unfold Acts
        rw [if_pos lastOne, SpawnerId.free_cases, owned,
          show (world.leaving deposit.handle others).spawner? id = some spawner from custody.found]
        dsimp only
        rw [if_neg apart]
        rfl
      · rw [if_neg lastOne]
        rfl
    refine ⟨_, after, acts, stays _ acts, fun other memberToo differ held => ?_⟩
    have keys : other.handle.key ≠ deposit.handle.key := fun same =>
      differ (Deposit.eq_of_key custody.apart memberToo member same)
    exact (world.isHeld_leaving_of_ne deposit.handle other.handle others keys).mpr held

end Custody

namespace SpawnerId.Placed

variable {id : SpawnerId} {world : World} {spawner : Spawner} {fleet : Fleet}
  {deposits : List Deposit} {size : Nat} {partition : Nat → Batch} {deposit : Deposit}

/-- Where a result lies is not a matter of what is kept for the workers. -/
theorem keeping (placed : id.Placed size partition deposits deposit world spawner fleet)
    (tables : List PendingTable) :
    id.Placed size partition deposits deposit { world with tables } spawner fleet where
  custody := placed.custody.keeping tables
  computed := placed.computed
  isThere := ⟨placed.isThere.member, placed.isThere.held, placed.isThere.live⟩
  musters := ⟨placed.musters.live, placed.musters.idle⟩

/-- Giving up a share of what belongs to no live group leaves a result where it lies. -/
theorem releaseLost (placed : id.Placed size partition deposits deposit world spawner fleet)
    (other : Deposit) (member : other ∈ deposits) (lost : world.isLive other.handle = false) :
    ∃ shares after, Acts other.handle.release world fleet () { world with shares } fleet ∧
      id.Placed size partition deposits deposit { world with shares } after fleet := by
  obtain ⟨shares, after, released, kept, stays⟩ := placed.custody.releaseLost other member lost
  obtain ⟨isMember, held, live⟩ := placed.isThere
  have differ : deposit ≠ other := by
    rintro rfl
    rw [(placed.custody.isLive_iff member).mpr live] at lost
    cases lost
  exact ⟨shares, after, released, kept, placed.computed, ⟨isMember, stays deposit isMember differ held,
    live⟩, placed.musters.live, placed.musters.idle⟩

end SpawnerId.Placed

namespace Custody

variable {id : SpawnerId} {world : World} {spawner : Spawner} {fleet : Fleet}
  {deposits : List Deposit} {size : Nat} {key : LazyKey} {whole : Batch} {portion : Nat → Batch}

/-- A table that the coordinator has is put onto the workers, and a copy of which the group has
ended is given up. -/
theorem scatterKept (custody : Custody id world spawner fleet deposits)
    (keeps : fleet.registry.KeepsTables) (musters : id.Musters world size) (key : LazyKey)
    (kept : PendingTable) (table : Batch) (here : kept.frame = .collected table)
    (copies : ∀ copy ∈ kept.scattered, ∃ deposit ∈ deposits, copy.handle? = some deposit.handle ∧
      world.isLive deposit.handle = false) :
    ∃ deposit later after last,
      Acts (LazyTable.scatterPending id key kept).run world fleet (.ok deposit.handle.id) later last ∧
      id.Placed size (table.block size) (deposits ++ [deposit]) deposit later after last ∧
      last.registry = fleet.registry ∧ later.tables.length = world.tables.length := by
  obtain ⟨partitioned, deposit, between, after, last, scattered, placed, registered, same, lost⟩ :=
    custody.scatter keeps musters table
  let copied := between.copying key (.distributed partitioned deposit.handle)
  have placedThen : id.Placed size (table.block size) (deposits ++ [deposit]) deposit copied after
      last := placed.keeping copied.tables
  have length : copied.tables.length = world.tables.length := by
    rw [← same]
    exact List.length_modify _ _ _
  cases before : kept.scattered with
  | none =>
    refine ⟨deposit, copied, after, last, LazyTable.acts_scatterPending here scattered ?_, placedThen,
      registered, length⟩
    rw [before]
    rfl
  | some copy =>
    obtain ⟨other, member, owns, isLost⟩ := copies copy before
    obtain ⟨shares, afterwards, released, placedLast⟩ :=
      placedThen.releaseLost other (List.mem_append_left _ member) (lost other member isLost)
    refine ⟨deposit, _, afterwards, last, LazyTable.acts_scatterPending here scattered ?_, placedLast,
      registered, length⟩
    rw [before]
    show Acts (copy.handle?.forM Handle.release) _ _ _ _ _
    rw [owns]
    exact released

/-- Once a table was made sure of, its portions lie on the ranks of the live group under its name.
-/
theorem settles (custody : Custody id world spawner fleet deposits)
    (keeps : fleet.registry.KeepsTables) (musters : id.Musters world size)
    (provides : world.Provides id deposits size key whole portion) :
    ∃ deposit record later after last,
      Acts ((LazyTable.pending key).settle id).run world fleet (.ok deposit.handle.id) later last ∧
      id.Placed size portion record deposit later after last ∧ last.registry = fleet.registry ∧
      later.names key = some deposit.handle.id := by
  have reused (deposit : Deposit) (isThere : deposit.IsThere id world deposits)
      (computed : deposit.partition = portion) (frame : Frame)
      (finds : world.Finds key frame deposit.handle) :
      ∃ deposit record later after last,
        Acts ((LazyTable.pending key).settle id).run world fleet (.ok deposit.handle.id) later last ∧
        id.Placed size portion record deposit later after last ∧ last.registry = fleet.registry ∧
        later.names key = some deposit.handle.id := by
    obtain ⟨settled, again⟩ := LazyTable.settle_found id finds
    have placed : id.Placed size portion deposits deposit world spawner fleet :=
      ⟨custody, computed, isThere, musters⟩
    refine ⟨deposit, deposits, _, spawner, fleet, ?_, placed.keeping _, rfl,
      world.names_named deposit.handle.id finds.inside⟩
    unfold Acts
    rw [settled]
    rfl
  -- The result lies on the workers, or the table is kept here and may have a copy there.
  cases provides with
  | resident kept partitioned deposit there lies isThere alike =>
    have live := (custody.isLive_iff isThere.member).mpr isThere.live
    refine reused deposit isThere rfl kept.frame ⟨kept, there, rfl, ?_⟩
    rw [PendingTable.resident?, lies, Frame.handle?, Option.filter_some, if_pos live]
    rfl
  | collected kept _ there here copies =>
    cases used : kept.resident? world with
    | some handle =>
      obtain ⟨live, own | ⟨copy, copied, own⟩⟩ := PendingTable.resident?_cases used
      · rw [here] at own
        cases own
      · obtain ⟨deposit, member, owns, isHeld, computed⟩ := copies copy copied
        obtain rfl := Option.some.inj (own.symm.trans owns)
        exact reused deposit ⟨member, isHeld, (custody.isLive_iff member).mp live⟩ (computed live)
          kept.frame ⟨kept, there, rfl, used⟩
    | none =>
      obtain ⟨deposit, between, after, last, scattered, placed, registered, length⟩ :=
        custody.scatterKept keeps musters key kept whole here fun copy copied => by
          obtain ⟨deposit, member, owns, -⟩ := copies copy copied
          exact ⟨deposit, member, owns, PendingTable.isLive_of_copy used copied owns⟩
      have inside := (List.getElem?_eq_some_iff.mp there).1
      refine ⟨deposit, _, between.named key deposit.handle.id, after, last, ?_, placed.keeping _,
        registered, between.names_named deposit.handle.id (length ▸ inside)⟩
      unfold Acts
      rw [LazyTable.settle_cases, there]
      dsimp only
      rw [LazyTable.settleKept_eq, used]
      exact Acts.bindOk scattered rfl

end Custody

end Rankwise

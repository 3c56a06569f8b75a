import Rankwise.Proofs.SideBySide

/-!
# Making sure of kept tables

A kept table is made sure of for a spawner: the result behind its frame is used if its group is
live, else the copy of the table that was put onto workers before, and only if both are gone the
table is put onto the workers of the spawner. Whose workers have the table then depends on the
handle that is used (`PendingTable.home`). `Custodies.settles` tells what comes of it with any
number of spawners.
-/

namespace Rankwise

namespace PendingTable

/-- The spawner whose workers have a kept table once it was made sure of for a spawner. -/
def home (kept : PendingTable) (world : World) (id : SpawnerId) : SpawnerId :=
  ((kept.resident? world).map Handle.owner).getD id

variable {kept : PendingTable} {world : World} {handle : Handle}

/-- If none is used, none belongs to a live group. -/
theorem isLive_of_names (unused : kept.resident? world = none) (names : kept.Names handle) :
    world.isLive handle = false := by
  rcases names with own | ⟨copy, member, own⟩
  · have frame := (Option.or_eq_none_iff.mp unused).1
    rw [own] at frame
    simpa using frame
  · exact isLive_of_copy unused member own

/-- The handle that is used is used as long as its group is live. -/
theorem IsKnown.resident?_later {deposits : SpawnerId → List Deposit} {later : World}
    (known : kept.IsKnown world deposits) (used : kept.resident? world = some handle)
    (live : later.isLive handle = true) : kept.resident? later = some handle := by
  obtain ⟨-, own | ⟨copy, member, own⟩⟩ := resident?_cases used
  · rw [resident?, own, Option.filter_some, if_pos live]
    rfl
  · obtain ⟨table, _, here, -⟩ := known.copy copy member
    rw [resident?, here, Option.mem_def.mp member, Option.bind_some, own, Option.filter_some,
      if_pos live]
    rfl

end PendingTable

/-- The spawner has a live group, or it is known how many workers it is to have. -/
def SpawnerId.HasWorkers (id : SpawnerId) (world : World) : Prop := ∃ size, id.Musters world size

/-- A kept table can be made sure of for a spawner: it lies on workers, or the coordinator has it
and the spawner has workers. -/
def PendingTable.IsAtHand (kept : PendingTable) (world : World) (id : SpawnerId) : Prop :=
  (kept.resident? world).isSome = true ∨
    (∃ table, kept.frame = .collected table) ∧ id.HasWorkers world

namespace Custody

variable {id : SpawnerId} {world : World} {spawner : Spawner} {fleet : Fleet}
  {deposits : List Deposit}

/-- The spawner has workers, or no group can be launched for it. -/
theorem hasWorkers_or (custody : Custody id world spawner fleet deposits) :
    id.HasWorkers world ∨ ¬ id.HasWorkers world ∧ world.group? id = none ∧
      ∃ failure, SpawnerId.workers? spawner world = .error failure := by
  cases live : world.group? id with
  | some group =>
    refine .inl ⟨group.size, fun other running => ?_, fun _ _ idle => by cases live.symm.trans idle⟩
    obtain rfl := Option.some.inj (live.symm.trans running)
    rfl
  | none =>
    cases count : SpawnerId.workers? spawner world with
    | error failure =>
      refine .inr ⟨?_, rfl, failure, rfl⟩
      rintro ⟨size, musters⟩
      cases (musters.idle spawner custody.found live).symm.trans count
    | ok size =>
      refine .inl ⟨size, fun group running => (by cases live.symm.trans running), ?_⟩
      intro known found _
      obtain rfl := Option.some.inj (found.symm.trans custody.found)
      exact count

end Custody

/-- To keep a frame changes nothing else. -/
theorem LazyTable.acts_create (frame : Frame) (world : World) (fleet : Fleet) :
    Acts (create frame) world fleet (.pending ⟨world.tables.length⟩)
      { world with tables := world.tables ++ [{ frame }] } fleet := rfl

/-- A table that is not kept is not made sure of. -/
theorem LazyTable.settle_missing (id : SpawnerId) {key : LazyKey} {world : World} {fleet : Fleet}
    (missing : world.tables[key.index]? = none) :
    Acts ((pending key).settle id).run world fleet (.error (.failed onWorker)) world fleet := by
  unfold Acts
  rw [settle_cases, missing]
  rfl

/-- What was handed out for a kept table that was put onto workers just now: the blocks of the table
for the ranks of the live group. -/
def LazyTable.copied (table : LazyTable) (before after : World) : List Deposit :=
  match table.pending? before, table.pending? after with
  | some kept,
    some { frame := .collected batch, scattered := some (.distributed partitioned handle), .. } =>
    if kept.scattered = some (.distributed partitioned handle) then []
    else [{ handle, partition := batch.block (after.workers handle.owner) }]
  | _, _ => []

/-- Nothing was handed out if there is no other copy than before. -/
theorem LazyTable.copied_eq_nil (table : LazyTable) (before after : World)
    (same : ∀ kept later, table.pending? before = some kept → table.pending? after = some later →
      later.scattered = kept.scattered) : table.copied before after = [] := by
  unfold copied
  split
  · rename_i kept batch partitioned handle name found foundThen
    exact if_pos (same kept _ found foundThen).symm
  · rfl

/-- The copy a deposit records is the one that was newly scattered. -/
theorem LazyTable.copied_eq {table : LazyTable} {before after : World} {kept noted : PendingTable}
    {batch : Batch} {partitioned : Partitioned} {deposit : Deposit}
    (found : table.pending? before = some kept) (foundThen : table.pending? after = some noted)
    (here : noted.frame = .collected batch)
    (copy : noted.scattered = some (.distributed partitioned deposit.handle))
    (new : kept.scattered ≠ noted.scattered)
    (blocks : deposit.partition = batch.block (after.workers deposit.handle.owner)) :
    table.copied before after = [deposit] := by
  obtain ⟨frame, scattered, name⟩ := noted
  obtain rfl : frame = .collected batch := here
  obtain rfl : scattered = some (.distributed partitioned deposit.handle) := copy
  rw [copied, found, foundThen]
  dsimp only
  rw [if_neg new, ← blocks]

/-- The result consists of the blocks of the table, which lie on the ranks of the live group. -/
structure Deposit.IsCopied (deposit : Deposit) (id : SpawnerId) (table : Batch) (world : World) :
    Prop where
  owned : deposit.handle.owner = id
  live : world.isLive deposit.handle = true
  held : world.IsHeld deposit.handle
  blocks : ∀ group, world.group? id = some group → deposit.partition = table.block group.size

/-- All groups that were live are so still. -/
def World.Lasts (world later : World) : Prop :=
  ∀ id group, world.group? id = some group → later.group? id = some group

/-- If the live group of the one spawner goes on, so do those of all others. -/
theorem SpawnerId.Spares.lasts {id : SpawnerId} {touches : Nat → Prop} {world later : World}
    {fleet last : Fleet} (spares : id.Spares touches world fleet later last)
    (own : ∀ group, world.group? id = some group → later.group? id = some group) :
    world.Lasts later := by
  intro other group live
  by_cases same : other = id
  · exact same ▸ own group (same ▸ live)
  · exact (spares.group? same).trans live

/-- What holds of all tables and of the one that is put in the place of one of them holds of all
afterwards. -/
theorem forall_mem_modify {α : Type} {holds : α → Prop} (items : List α) (place : Nat)
    (change : α → α) (all : ∀ item ∈ items, holds item)
    (changed : ∀ item, items[place]? = some item → holds (change item)) :
    ∀ item ∈ items.modify place change, holds item := by
  intro item member
  obtain ⟨index, found⟩ := List.mem_iff_getElem?.mp member
  rw [List.getElem?_modify] at found
  obtain ⟨before, there, rfl⟩ := Option.map_eq_some_iff.mp found
  by_cases here : place = index
  · rw [if_pos here]
    exact changed before (here ▸ there)
  · rw [if_neg here]
    exact all before (List.mem_of_getElem? there)

namespace Custodies

variable {id : SpawnerId} {world later : World} {fleet last : Fleet} {spawner after : Spawner}
  {deposits : SpawnerId → List Deposit}

/-- Where each handle has its deposit, the generations are noted. -/
theorem notes (custodies : Custodies world fleet deposits) : world.NotesGenerations :=
  fun id spawner found => (custodies.custody id spawner found).noted

/-- A handle belongs to a live group if it is of the generation of the live group of its owner. -/
theorem isLive_iff (custodies : Custodies world fleet deposits) (handle : Handle) :
    world.isLive handle = true ↔ ∃ group, world.group? handle.owner = some group ∧
      handle.generation = group.generation := by
  cases found : world.spawner? handle.owner with
  | none => simp [World.isLive, World.group?_eq, found]
  | some spawner =>
    have custody := custodies.custody _ spawner found
    rw [World.isLive, found, custody.group?_eq]
    simp only [Option.any_some, custody.noted, decide_eq_true_eq, Option.map_eq_some_iff]
    exact exists_congr fun group => and_congr_right fun _ => eq_comm

/-- What is done with one spawner keeps all records, also if nothing is handed out. -/
theorem actingOnly (custodies : Custodies world fleet deposits)
    (found : world.spawner? id = some spawner)
    (spares : id.Spares (Deposit.Keys (deposits id)) world fleet later last)
    (kept : Custody id later after last (deposits id))
    (theirs : ∀ kept ∈ world.tables, ∀ handle, kept.Names handle → later.isLive handle = true →
      world.IsHeld handle → later.IsHeld handle) : Custodies later last deposits := by
  have keptToo : Custody id later after last (deposits id ++ []) := by rwa [List.append_nil]
  have all := custodies.acting found spares keptToo (List.forall_mem_nil _) theirs
  rwa [List.append_nil, Function.update_eq_self] at all

/-- If no share is changed, what is kept for the workers is still held. -/
theorem held_of_untouched (custodies : Custodies world fleet deposits)
    (spares : id.Spares (fun _ => False) world fleet later last) {kept : PendingTable}
    (member : kept ∈ world.tables) {handle : Handle} (names : kept.Names handle)
    (held : world.IsHeld handle) : later.IsHeld handle := by
  have known : ∃ deposit ∈ deposits handle.owner, deposit.handle = handle := by
    obtain ⟨frame, copies⟩ := custodies.tables kept member
    rcases names with own | ⟨copy, copied, own⟩
    · obtain ⟨deposit, listed, same, -⟩ := frame handle own
      exact ⟨deposit, listed, same⟩
    · obtain ⟨_, found, -, ownToo, deposit, listed, same, -⟩ := copies copy copied
      obtain rfl := Option.some.inj (own.symm.trans ownToo)
      exact ⟨deposit, listed, same⟩
  obtain ⟨deposit, listed, rfl⟩ := known
  obtain ⟨spawner, found⟩ := custodies.there listed
  have keyed := ((custodies.custody _ spawner found).recorded deposit listed).keyed
  rwa [World.IsHeld, spares.keeps.shares _ keyed fun touched => touched]

/-- Giving up a share of what belongs to no live group keeps all records, and what belongs to a live
group is still held. -/
theorem releasesLost (custodies : Custodies world fleet deposits) {deposit : Deposit}
    (member : deposit ∈ deposits deposit.handle.owner)
    (lost : world.isLive deposit.handle = false) :
    ∃ shares, Acts deposit.handle.release world fleet () { world with shares } fleet ∧
      Custodies { world with shares } fleet deposits ∧
      ∀ another ∈ deposits id, world.isLive another.handle = true →
        world.IsHeld another.handle → ({ world with shares } : World).IsHeld another.handle := by
  obtain ⟨spawner, found⟩ := custodies.there member
  have custody := custodies.custody _ spawner found
  obtain ⟨shares, _, released, kept, -⟩ := custody.releaseLost deposit member lost
  have within : Within (· = deposit.handle.owner) (· = deposit.handle.key) deposit.handle.release := by
    refine deposit.handle.within_release ⟨?_, ?_⟩ <;> rfl
  have spares := custody.spares within released
  have stays (other : SpawnerId) (another : Deposit) (listed : another ∈ deposits other)
      (live : world.isLive another.handle = true) (held : world.IsHeld another.handle) :
      ({ world with shares } : World).IsHeld another.handle := by
    obtain ⟨known, there⟩ := custodies.there listed
    have keyed := ((custodies.custody _ known there).recorded another listed).keyed
    rw [World.IsHeld, spares.keeps.shares _ keyed]
    · exact held
    · intro same
      by_cases own : other = deposit.handle.owner
      · subst own
        obtain rfl := Deposit.eq_of_key custody.apart listed member same
        cases live.symm.trans lost
      · exact (custodies.apart other _ own another listed deposit member).keys same
  refine ⟨shares, released, ?_, stays id⟩
  refine custodies.actingOnly found (spares.mono fun key same => ⟨deposit, member, same.symm⟩) kept ?_
  intro table listed handle names live held
  obtain ⟨frame, copies⟩ := custodies.tables table listed
  rcases names with own | ⟨copy, copied, own⟩
  · obtain ⟨another, among, rfl, -⟩ := frame handle own
    exact stays _ another among live held
  · obtain ⟨_, _, -, ownToo, another, among, rfl, -⟩ := copies copy copied
    obtain rfl := Option.some.inj (own.symm.trans ownToo)
    exact stays _ another among live held

/-- The table of a frame of which the group has ended is not fetched, and to try it keeps all
records. -/
theorem fetchesLost (custodies : Custodies world fleet deposits) {deposit : Deposit}
    (member : deposit ∈ deposits deposit.handle.owner)
    (lost : world.isLive deposit.handle = false) :
    ∃ stop later last, Acts deposit.handle.gather.run world fleet (.error stop) later last ∧
      Custodies later last deposits ∧ later.tables = world.tables ∧
      last.registry = fleet.registry ∧ world.Lasts later := by
  obtain ⟨spawner, found⟩ := custodies.there member
  have custody := custodies.custody _ spawner found
  obtain ⟨answer, _, last, fetched, kept, registered, -⟩ := custody.gather deposit member
  have within : Within (· = deposit.handle.owner) (fun _ => False) deposit.handle.gather.run := by
    refine deposit.handle.within_gather ?_
    rfl
  have spares := custody.spares within fetched
  cases answer with
  | ok table => exact absurd fetched (deposit.handle.gather_lost custodies.notes lost table)
  | error stop =>
    refine ⟨stop, _, last, fetched, ?_, rfl, registered, spares.lasts fun group live => ?_⟩
    · exact custodies.actingOnly found (spares.mono fun _ touched => touched.elim) kept
        fun table listed handle names _ held => custodies.held_of_untouched spares listed names held
    · exact (world.group?_emptied _).trans live

/-- Putting a table onto the workers of a spawner fails, or its blocks lie there then. -/
theorem scatters (custodies : Custodies world fleet deposits) (keeps : fleet.registry.KeepsTables)
    (found : world.spawner? id = some spawner) (table : Batch) :
    ∃ answer later last, Acts (id.scatter table).run world fleet answer later last ∧
      later.tables = world.tables ∧ last.registry = fleet.registry ∧ world.Lasts later ∧
      (∀ other, ∀ deposit ∈ deposits other, later.isLive deposit.handle = true →
        world.isLive deposit.handle = true) ∧
      ((∃ stop, answer = .error stop ∧ Custodies later last deposits ∧ ¬ id.HasWorkers world) ∨
        ∃ partitioned deposit, answer = .ok (.distributed partitioned deposit.handle) ∧
          Custodies later last (Function.update deposits id (deposits id ++ [deposit])) ∧
          deposit.IsCopied id table later ∧ deposit.handle.IsNew world ∧ id.HasWorkers world) := by
  have custody := custodies.custody id spawner found
  have nobody : ({} : Meanwhile).IsWithin (· = id) fun _ => False := fun _ member => by cases member
  have sparing {answer : Except Stop Frame} {later : World} {last : Fleet}
      (acts : Acts (id.scatter table).run world fleet answer later last) :=
    custody.scatterWhile_adds keeps {} (List.forall_mem_nil _) nobody table
      (id.scatterWhile_nothing table ▸ acts)
  have owned {other : SpawnerId} {deposit : Deposit} (member : deposit ∈ deposits other) :
      deposit ∈ deposits deposit.handle.owner := by
    obtain ⟨known, there⟩ := custodies.there member
    rwa [((custodies.custody other known there).recorded deposit member).owned]
  -- There are workers, and the table is put onto them, or none can be had, and all stays as it was.
  rcases custody.hasWorkers_or with ⟨size, musters⟩ | ⟨never, idle, failure, none⟩
  · obtain ⟨partitioned, deposit, later, after, last, scattered, placed, registered, same, -⟩ :=
      custody.scatter keeps musters table
    obtain ⟨spares, new, lasts⟩ := sparing scattered
    have newOne : deposit.handle.IsNew world :=
      new { handle := deposit.handle, partition := table.block partitioned.partitionRows.length }
        (List.mem_singleton_self _)
    refine ⟨_, later, last, scattered, same, registered, spares.lasts lasts, ?_,
      .inr ⟨partitioned, deposit, rfl, ?_, ?_, newOne, size, musters⟩⟩
    · intro other known member live
      exact (custodies.isLive_before found spares placed.custody (owned member) live).1
    · refine custodies.acting found (spares.mono fun _ touched => touched.elim) placed.custody ?_ ?_
      · intro added member
        obtain rfl := List.mem_singleton.mp member
        exact newOne
      · exact fun kept listed handle names _ held =>
          custodies.held_of_untouched spares listed names held
    · obtain ⟨member, held, live⟩ := placed.isThere
      refine ⟨(placed.custody.recorded deposit member).owned, ?_, held, fun group running => ?_⟩
      · exact (placed.custody.isLive_iff member).mpr live
      · rw [placed.computed, placed.musters.live group running]
  · have ensured : Acts id.ensureGroup.run world fleet (.error (.failed failure))
        (id.counted spawner world) fleet := by
      unfold Acts
      rw [id.run_ensureGroup_launch world spawner found idle, id.run_launch, none]
      rfl
    have failed : Acts (id.scatter table).run world fleet (.error (.failed failure))
        (id.counted spawner world) fleet := Acts.bindError (Acts.bindError ensured)
    have kept := custody.counted (custody.group?_eq.symm.trans idle)
    obtain ⟨spares, -, lasts⟩ := sparing failed
    have keptToo : Custody id (id.counted spawner world)
        { spawner with lastGeneration := spawner.lastGeneration + 1 } fleet (deposits id ++ []) := by
      rwa [List.append_nil]
    refine ⟨_, _, fleet, failed, rfl, rfl, spares.lasts lasts, ?_, .inl ⟨_, rfl, ?_, never⟩⟩
    · intro other known member live
      exact (custodies.isLive_before found spares keptToo (owned member) live).1
    · exact custodies.actingOnly found (spares.mono fun _ touched => touched.elim) kept
        fun kept listed handle names _ held => custodies.held_of_untouched spares listed names held

/-- What was handed out before is still recorded when a record grows. -/
theorem mem_update {deposit : Deposit} (added : List Deposit)
    (member : deposit ∈ deposits deposit.handle.owner) :
    deposit ∈ Function.update deposits id (deposits id ++ added) deposit.handle.owner := by
  by_cases own : deposit.handle.owner = id
  · rw [own, Function.update_self]
    exact List.mem_append_left _ (own ▸ member)
  · rwa [Function.update_of_ne own]

/-- A kept table of which the blocks were put onto workers just now is known with this copy. -/
theorem isKnown_copied {kept : PendingTable} {table : Batch} (here : kept.frame = .collected table)
    (partitioned : Partitioned) {deposit : Deposit} (member : deposit ∈ deposits id)
    (copied : deposit.IsCopied id table world) :
    ({ kept with scattered := some (.distributed partitioned deposit.handle) } :
      PendingTable).IsKnown world deposits where
  frame handle own := by
    have none : kept.frame.handle? = some handle := own
    rw [here] at none
    cases none
  copy copy same := by
    obtain rfl := Option.some.inj same
    have owned := copied.owned
    exact ⟨table, deposit.handle, here, rfl, deposit, owned.symm ▸ member, rfl, fun _ =>
      ⟨copied.held, fun group running => copied.blocks group (owned ▸ running)⟩⟩

/-- Noting the copy of a table that was put onto workers keeps all records. -/
theorem copying (custodies : Custodies world fleet deposits) (key : LazyKey) {kept : PendingTable}
    {table : Batch} (partitioned : Partitioned) {deposit : Deposit}
    (there : world.tables[key.index]? = some kept) (here : kept.frame = .collected table)
    (member : deposit ∈ deposits id) (copied : deposit.IsCopied id table world) :
    Custodies (world.copying key (.distributed partitioned deposit.handle)) fleet deposits := by
  refine custodies.keeping _ (forall_mem_modify world.tables key.index
    (fun kept => { kept with scattered := some (.distributed partitioned deposit.handle) })
    custodies.tables fun item found => ?_)
  obtain rfl := Option.some.inj (there.symm.trans found)
  exact isKnown_copied here partitioned member copied

/-- A copy of which the group has ended is given up, if there is one. -/
theorem givesUp (custodies : Custodies world fleet deposits) (before : Option Frame)
    (lost : ∀ copy ∈ before, ∃ deposit ∈ deposits deposit.handle.owner,
      copy.handle? = some deposit.handle ∧ world.isLive deposit.handle = false) :
    ∃ shares, Acts (before.forM Frame.release) world fleet () { world with shares } fleet ∧
      Custodies { world with shares } fleet deposits ∧
      ∀ another ∈ deposits id, world.isLive another.handle = true →
        world.IsHeld another.handle → ({ world with shares } : World).IsHeld another.handle := by
  cases before with
  | none => exact ⟨world.shares, rfl, custodies, fun _ _ _ held => held⟩
  | some copy =>
    obtain ⟨deposit, member, own, isLost⟩ := lost copy rfl
    obtain ⟨shares, released, all, stays⟩ := custodies.releasesLost member isLost
    refine ⟨shares, ?_, all, stays⟩
    show Acts (copy.handle?.forM Handle.release) _ _ _ _ _
    rw [own]
    exact released

/-- Putting a kept table onto the workers of a spawner fails, or a new copy lies there then. -/
theorem scattersPending (custodies : Custodies world fleet deposits)
    (keeps : fleet.registry.KeepsTables) (found : world.spawner? id = some spawner) (key : LazyKey)
    {kept : PendingTable} (there : world.tables[key.index]? = some kept)
    (unused : kept.resident? world = none) :
    ∃ answer later last,
      Acts (LazyTable.scatterPending id key kept).run world fleet answer later last ∧
      last.registry = fleet.registry ∧ world.Lasts later ∧
      ((∃ stop, answer = .error stop ∧ Custodies later last deposits ∧
          later.tables = world.tables ∧ ¬ kept.IsAtHand world id) ∨
        ∃ table partitioned deposit, kept.frame = .collected table ∧
          answer = .ok deposit.handle.id ∧
          Custodies later last (Function.update deposits id (deposits id ++ [deposit])) ∧
          deposit.IsCopied id table later ∧ deposit.handle.IsNew world ∧ id.HasWorkers world ∧
          later.tables = world.tables.modify key.index fun kept =>
            { kept with scattered := some (.distributed partitioned deposit.handle) }) := by
  have known := custodies.tables kept (List.mem_of_getElem? there)
  have lost {handle : Handle} (names : kept.Names handle) : world.isLive handle = false :=
    PendingTable.isLive_of_names unused names
  -- The kept table is fetched first. One whose group has ended is lost and cannot be.
  cases here : kept.frame with
  | distributed partitioned handle =>
    have own : kept.frame.handle? = some handle := by rw [here]; rfl
    obtain ⟨deposit, member, rfl, -⟩ := known.frame handle own
    obtain ⟨stop, later, last, fetched, all, same, registered, lasts⟩ :=
      custodies.fetchesLost member (lost (.inl own))
    have begun : Acts kept.frame.table.run world fleet (.error stop) later last := by
      rw [here]
      exact fetched
    refine ⟨_, later, last, Acts.bindError begun, registered, lasts, .inl ⟨stop, rfl, all, same, ?_⟩⟩
    rintro (used | ⟨⟨table, other⟩, -⟩)
    · rw [unused] at used
      cases used
    · cases here.symm.trans other
  | collected table =>
    obtain ⟨answer, between, last, scattered, same, registered, lasts, lostThen, failed | made⟩ :=
      custodies.scatters keeps found table
    · obtain ⟨stop, rfl, all, never⟩ := failed
      have begun : Acts kept.frame.table.run world fleet (.ok table) world fleet := by
        rw [here]
        rfl
      refine ⟨_, between, last, Acts.bindOk begun (Acts.bindError scattered), registered, lasts,
        .inl ⟨stop, rfl, all, same, ?_⟩⟩
      rintro (used | ⟨-, hasWorkers⟩)
      · rw [unused] at used
        cases used
      · exact never hasWorkers
    · obtain ⟨partitioned, deposit, rfl, all, copied, new, hasWorkers⟩ := made
      have listed : deposit ∈ Function.update deposits id (deposits id ++ [deposit]) id := by
        rw [Function.update_self]
        exact List.mem_append_right _ (List.mem_singleton_self _)
      have noted := all.copying key partitioned (same ▸ there) here listed copied
      obtain ⟨shares, released, allThen, stays⟩ := noted.givesUp kept.scattered fun copy before => by
        obtain ⟨_, handle, -, own, old, member, rfl, -⟩ := known.copy copy before
        refine ⟨old, mem_update _ member, own, Bool.eq_false_iff.mpr fun live => ?_⟩
        cases (lost (.inr ⟨copy, before, own⟩)).symm.trans (lostThen _ old member live)
      refine ⟨_, _, last, LazyTable.acts_scatterPending here scattered released, registered, lasts,
        .inr ⟨table, partitioned, deposit, rfl, rfl, allThen, ?_, new, hasWorkers,
          congrArg (List.modify · _ _) same⟩⟩
      exact ⟨copied.owned, copied.live, stays deposit listed copied.live copied.held, copied.blocks⟩

/-- Noting under which name a table lies on the workers changes nothing else. -/
theorem noting (custodies : Custodies world fleet deposits) (key : LazyKey) (name : ResultId) :
    Custodies (world.named key name) fleet deposits := by
  refine custodies.keeping _ (forall_mem_modify world.tables key.index
    (fun kept => { kept with id := some name }) custodies.tables fun kept there => ?_)
  have known := custodies.tables kept (List.mem_of_getElem? there)
  exact ⟨known.frame, known.copy⟩

/-- If a new copy of a kept table lies on the workers, it is found and handed out. -/
theorem findsCopy {between : World} (custodies : Custodies world fleet deposits) (key : LazyKey)
    {kept : PendingTable} (there : world.tables[key.index]? = some kept) {table : Batch}
    {partitioned : Partitioned} {deposit : Deposit} (here : kept.frame = .collected table)
    (all : Custodies between last (Function.update deposits id (deposits id ++ [deposit])))
    (copied : deposit.IsCopied id table between) (new : deposit.handle.IsNew world)
    (same : between.tables = world.tables.modify key.index fun kept =>
      { kept with scattered := some (.distributed partitioned deposit.handle) }) :
    (LazyTable.pending key).copied world (between.named key deposit.handle.id) = [deposit] ∧
      (between.named key deposit.handle.id).Finds key kept.frame deposit.handle := by
  let later := between.named key deposit.handle.id
  have noted : later.tables[key.index]? = some { kept with
      scattered := some (.distributed partitioned deposit.handle)
      id := some deposit.handle.id } := by
    show (between.tables.modify key.index _)[key.index]? = _
    rw [List.getElem?_modify_eq, same, List.getElem?_modify_eq, there]
    rfl
  have live : later.isLive deposit.handle = true := copied.live
  refine ⟨?_, _, noted, rfl, ?_⟩
  · obtain ⟨group, running, -⟩ := (all.isLive_iff _).mp copied.live
    have count : later.workers deposit.handle.owner = group.size := by
      rw [World.workers, show later.group? deposit.handle.owner = some group from running]
      rfl
    have blocks : deposit.partition = table.block (later.workers deposit.handle.owner) :=
      count ▸ copied.blocks group (copied.owned ▸ running)
    have known : (LazyTable.pending key).pending? world = some kept := there
    refine LazyTable.copied_eq known noted here rfl ?_ blocks
    intro copiedBefore
    obtain ⟨_, handle, -, own, old, member, rfl, -⟩ :=
      (custodies.tables kept (List.mem_of_getElem? there)).copy _ copiedBefore
    obtain ⟨known, foundOld⟩ := custodies.there member
    have keyed := ((custodies.custody _ known foundOld).recorded old member).keyed
    rw [← Option.some.inj own] at keyed
    exact absurd keyed (Nat.not_lt.mpr new.keyed)
  · rw [PendingTable.resident?, here]
    show (Option.some deposit.handle).filter later.isLive = some deposit.handle
    rw [Option.filter_some, if_pos live]

/-- To make sure of a kept table that nothing live stands for, it is put onto the workers and its
name is noted. -/
theorem acts_settle (key : LazyKey) {kept : PendingTable}
    (there : world.tables[key.index]? = some kept) (unused : kept.resident? world = none)
    {answer : Except Stop ResultId}
    (acts : Acts (LazyTable.scatterPending id key kept >>= LazyTable.note key).run world fleet answer
      later last) :
    Acts ((LazyTable.pending key).settle id).run world fleet answer later last := by
  unfold Acts
  rw [LazyTable.settle_cases, there]
  dsimp only
  rw [LazyTable.settleKept_eq, unused]
  exact acts

/-- If the copy of a kept table is the one that it had, nothing more was handed out for it. -/
theorem sameCopy (custodies : Custodies later last deposits) (key : LazyKey) {kept : PendingTable}
    (there : world.tables[key.index]? = some kept)
    (same : ∀ after, later.tables[key.index]? = some after → after.scattered = kept.scattered) :
    Custodies later last (Function.update deposits id
      (deposits id ++ (LazyTable.pending key).copied world later)) := by
  rw [LazyTable.copied_eq_nil, List.append_nil, Function.update_eq_self]
  · exact custodies
  · intro before after known knownThen
    obtain rfl := Option.some.inj (there.symm.trans known)
    exact same after knownThen

/-- A kept table is made sure of if it is at hand, and groups that are live and other kept tables
stay as they are. It is found then, on the workers of its home. -/
theorem settles (custodies : Custodies world fleet deposits) (keeps : fleet.registry.KeepsTables)
    (found : world.spawner? id = some spawner) (key : LazyKey) {kept : PendingTable}
    (there : world.tables[key.index]? = some kept) :
    ∃ answer later last, Acts ((LazyTable.pending key).settle id).run world fleet answer later last ∧
      last.registry = fleet.registry ∧ world.Lasts later ∧
      (∀ place, place ≠ key.index → later.tables[place]? = world.tables[place]?) ∧
      Custodies later last (Function.update deposits id
        (deposits id ++ (LazyTable.pending key).copied world later)) ∧
      ((∃ name, answer = .ok name) ↔ kept.IsAtHand world id) ∧
      ∀ name, answer = .ok name → ∃ handle, later.Finds key kept.frame handle ∧ handle.id = name ∧
        handle.owner = kept.home world id := by
  -- A copy on the workers of a live group is used again. Otherwise the table has to be put there.
  cases used : kept.resident? world with
  | some handle =>
    obtain ⟨settled, again⟩ := LazyTable.settle_found id ⟨kept, there, rfl, used⟩
    refine ⟨.ok handle.id, world.named key handle.id, fleet, ?_, rfl, fun _ _ live => live,
      fun place apart => List.getElem?_modify_ne _ _ apart.symm,
      (custodies.noting key handle.id).sameCopy key there fun after knownThen => ?_,
      ⟨fun _ => .inl (used ▸ rfl), fun _ => ⟨_, rfl⟩⟩, fun name same => ?_⟩
    · unfold Acts
      rw [settled]
      rfl
    · rw [World.named, List.getElem?_modify_eq, there] at knownThen
      obtain rfl := Option.some.inj knownThen
      rfl
    · obtain rfl := Except.ok.inj same
      exact ⟨handle, again, rfl, by rw [PendingTable.home, used]; rfl⟩
  | none =>
    obtain ⟨answer, between, last, acts, registered, lasts, failed | made⟩ :=
      custodies.scattersPending keeps found key there used
    · obtain ⟨stop, rfl, all, same, never⟩ := failed
      refine ⟨_, between, last, acts_settle key there used (Acts.bindError acts), registered, lasts,
        fun place _ => by rw [same], all.sameCopy key there fun after knownThen => ?_,
        ⟨?_, fun atHand => absurd atHand never⟩, fun name same => by cases same⟩
      · rw [same, there] at knownThen
        obtain rfl := Option.some.inj knownThen
        rfl
      · rintro ⟨name, named⟩
        cases named
    · obtain ⟨table, partitioned, deposit, here, rfl, all, copied, new, hasWorkers, same⟩ := made
      obtain ⟨handed, finds⟩ := custodies.findsCopy key there here all copied new same
      refine ⟨_, between.named key deposit.handle.id, last,
        acts_settle key there used (Acts.bindOk acts rfl), registered, lasts,
        fun place apart => ?_, ?_,
        ⟨fun _ => .inr ⟨⟨table, here⟩, hasWorkers⟩, fun _ => ⟨_, rfl⟩⟩, fun name named => ?_⟩
      · show (between.tables.modify key.index _)[place]? = _
        rw [List.getElem?_modify_ne _ _ apart.symm, same, List.getElem?_modify_ne _ _ apart.symm]
      · rw [handed]
        exact all.noting key deposit.handle.id
      · obtain rfl := Except.ok.inj named
        refine ⟨deposit.handle, finds, rfl, ?_⟩
        rw [copied.owned, PendingTable.home, used]
        rfl

/-- A table is found as long as the group behind the handle goes on. -/
theorem finds_later {more : SpawnerId → List Deposit} {key : LazyKey} {frame : Frame} {handle : Handle}
    (custodies : Custodies world fleet deposits) (all : Custodies later last more)
    (finds : world.Finds key frame handle)
    (same : later.tables[key.index]? = world.tables[key.index]?)
    (lasts : ∀ group, world.group? handle.owner = some group →
      later.group? handle.owner = some group) : later.Finds key frame handle := by
  obtain ⟨kept, there, rfl, used⟩ := finds
  obtain ⟨group, running, own⟩ :=
    (custodies.isLive_iff handle).mp (PendingTable.resident?_cases used).1
  have live := (all.isLive_iff handle).mpr ⟨group, lasts group running, own⟩
  have known := custodies.tables kept (List.mem_of_getElem? there)
  exact ⟨kept, same.trans there, rfl, known.resident?_later used live⟩

end Custodies

end Rankwise

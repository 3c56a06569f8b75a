import Rankwise.Proofs.Residence

/-!
# Clients of several spawners

Clients of several spawners act in any order, and in between tables are kept and made sure of for
one spawner or another. A `Firm` is what there is between two such actions: the coordinator, the
workers, and for each spawner the record of what was handed out. Coordinator and workers go on side
by side.

Main statement (`settled_at_home`): to make sure of a kept table always comes to an end, with the
same answer in every order of the steps, and it succeeds exactly if the table lies on workers
already, or the coordinator has it and the spawner has workers. Then the live group of one spawner
stores it under the name that is given, rank by rank in the order of its rows. That spawner is the
owner of the result that is used, if the frame of the table, or the copy that was put onto workers
before, belongs to a live group, and it need not be the one for which the table was made sure of;
only if there is no such result it is that one. Until the group is ended the table is made sure of
under the same name for all spawners, and nothing is sent for it.

What is assumed of computations and connections is what `Office.Step` assumes of them.
-/

namespace Rankwise

/-- The partitions of all ranks, joined in the order of the ranks, are the table. Those of a table
that is not consistent cannot be joined; they are its blocks. -/
def Group.MakesUp (group : Group) (partition : Nat → Batch) (table : Batch) : Prop :=
  joinPartitions ((List.range group.size).map partition) = .ok table ∨
    ¬ table.Consistent ∧ ∀ rank < group.size, partition rank = table.block group.size rank

/-- The blocks of a table make it up. -/
theorem Group.makesUp_blocks (group : Group) (manned : 0 < group.size) (table : Batch) :
    group.MakesUp (table.block group.size) table := by
  by_cases consistent : table.Consistent
  · left
    rw [joinPartitions_alike group.size manned _ (alike_blocks table consistent group.size),
      whole_blocks table consistent group.size manned]
  · exact .inr ⟨consistent, fun _ _ => rfl⟩

/-- What there is between two actions of clients of several spawners. -/
structure Firm where
  world : World
  traffic : Traffic
  /-- What was handed out by each spawner so far. -/
  deposits : SpawnerId → List Deposit

namespace Firm

/-- What matters to the clients of one spawner. -/
def office (firm : Firm) (id : SpawnerId) : Office where
  world := firm.world
  traffic := firm.traffic
  deposits := firm.deposits id

/-- In some order of the steps of coordinator and workers, acting comes to this value and leaves
this behind. -/
def Ends {α : Type} (firm : Firm) (acting : Acting α) (value : α) (world : World)
    (traffic : Traffic) : Prop :=
  Traffic.Reaches (firm.traffic, acting.run firm.world) (traffic, .done (value, world))

/-- A frame that the coordinator holds, or one that was handed out and of which somebody has a
share. -/
def Has (firm : Firm) (frame : Frame) : Prop :=
  ∀ handle, frame.handle? = some handle →
    ∃ deposit ∈ firm.deposits handle.owner, deposit.handle = handle ∧ firm.world.IsHeld handle

/-- The firm after something was done with one spawner. -/
def after (firm : Firm) (id : SpawnerId) (world : World) (traffic : Traffic)
    (deposits : List Deposit) : Firm where
  world
  traffic
  deposits := Function.update firm.deposits id deposits

/-- The actions of clients of several spawners. Groups are ended only by the clients that may do
it. -/
inductive Step (mayEnd : SpawnerId → Prop) : Firm → Firm → Prop
  /-- A client of a spawner acts. The shares that belong to kept tables are not given up. -/
  | act (firm : Firm) (id : SpawnerId) (office : Office)
      (there : (firm.world.spawner? id).isSome) (step : Office.Step id (firm.office id) office)
      (goesOn : mayEnd id ∨ ¬ Office.Resets id (firm.office id) office)
      (theirs : ∀ kept ∈ firm.world.tables, ∀ handle, kept.Names handle →
        firm.world.IsHeld handle → office.world.IsHeld handle) :
      Step mayEnd firm (firm.after id office.world office.traffic office.deposits)
  /-- A frame is kept until the workers need its table. -/
  | keep (firm : Firm) (frame : Frame) (table : LazyTable) (world : World) (traffic : Traffic)
      (has : firm.Has frame) (ends : firm.Ends (LazyTable.create frame) table world traffic) :
      Step mayEnd firm { firm with world, traffic }
  /-- A kept table is made sure of for a spawner. -/
  | settle (firm : Firm) (id : SpawnerId) (key : LazyKey) (answer : Except Stop ResultId)
      (world : World) (traffic : Traffic) (there : (firm.world.spawner? id).isSome)
      (ends : firm.Ends ((LazyTable.pending key).settle id).run answer world traffic) :
      Step mayEnd firm (firm.after id world traffic
        (firm.deposits id ++ (LazyTable.pending key).copied firm.world world))

/-- Nothing has been done with any spawner, and nothing is kept or was handed out. -/
structure IsOpening (firm : Firm) : Prop where
  sound : firm.traffic.IsSound
  keeps : firm.traffic.registry.KeepsTables
  idle : ∀ id spawner, firm.world.spawner? id = some spawner → spawner.live? = none ∧
    spawner.liveGeneration = none ∧ spawner.pending = []
  nothing : firm.deposits = fun _ => []
  empty : firm.world.tables = []

/-- Coordinator and workers stand to all records as they should. -/
structure InOrder (firm : Firm) : Prop where
  sound : firm.traffic.IsSound
  keeps : firm.traffic.registry.KeepsTables
  custodies : Custodies firm.world firm.traffic.settled firm.deposits

variable {α : Type} {mayEnd : SpawnerId → Prop} {firm before after : Firm} {id : SpawnerId}

/-- Where nothing has been done with any spawner, nothing has been done with one of them. -/
theorem IsOpening.office (opening : firm.IsOpening) {spawner : Spawner}
    (found : firm.world.spawner? id = some spawner) : (firm.office id).IsOpening id where
  sound := opening.sound
  keeps := opening.keeps
  idle := ⟨spawner, found, opening.idle id spawner found⟩
  nothing := congrFun opening.nothing id

/-- A firm in which nothing has been done is in order. -/
theorem IsOpening.inOrder (opening : firm.IsOpening) : firm.InOrder := by
  have idle (id : SpawnerId) : firm.world.group? id = none := by
    rw [World.group?_eq]
    cases found : firm.world.spawner? id with
    | none => rfl
    | some spawner => exact (opening.idle id spawner found).1
  refine ⟨opening.sound, opening.keeps, fun id spawner found => ?_, fun id _ => ?_, ?_, ?_, ?_⟩
  · obtain ⟨-, -, known, custody⟩ := (opening.office found).inOrder
    obtain rfl := Option.some.inj (found.symm.trans custody.found)
    exact custody
  · rw [opening.nothing]
  · intro id other _ deposit member
    rw [opening.nothing] at member
    cases member
  · intro id other _ group another live
    cases (idle id).symm.trans live
  · rw [opening.empty]
    exact List.forall_mem_nil _

/-- In a firm that is in order, each office is in order. -/
theorem InOrder.office (inOrder : firm.InOrder) {spawner : Spawner}
    (found : firm.world.spawner? id = some spawner) : (firm.office id).InOrder id :=
  ⟨inOrder.sound, inOrder.keeps, spawner, inOrder.custodies.custody id spawner found⟩

/-- What acting comes to in some order of steps is what it comes to with workers that act at once.
-/
theorem Ends.same {acting : Acting α} {value result : α} {later world : World} {last : Fleet}
    {traffic : Traffic} (ends : firm.Ends acting result world traffic) (sound : firm.traffic.IsSound)
    (acts : Acts acting firm.world firm.traffic.settled value later last) :
    traffic.IsSound ∧ result = value ∧ world = later ∧ traffic.settled = last := by
  obtain ⟨soundThen, -, unique⟩ := Traffic.same_end _ _ _ _ sound acts _ ends
  obtain ⟨same, settles⟩ := unique _ rfl
  obtain ⟨rfl, rfl⟩ := Prod.mk.inj same
  exact ⟨soundThen, rfl, rfl, settles⟩

/-- Workers that know how to keep a table still know it when the steps that are under way are done.
-/
theorem keeps_of_settled {traffic : Traffic} {last : Fleet} (inOrder : firm.InOrder)
    (same : traffic.settled = last) (registered : last.registry = firm.traffic.settled.registry) :
    traffic.registry.KeepsTables := by
  have unchanged : traffic.registry = firm.traffic.registry :=
    (congrArg Fleet.registry same).trans registered
  exact unchanged.symm ▸ inOrder.keeps

/-- Every action keeps all records. -/
theorem step_inOrder (inOrder : before.InOrder) (step : Step mayEnd before after) :
    after.InOrder := by
  -- The record of one office grows, a table is kept, or a kept table is put onto workers.
  cases step with
  | act id office there step _ theirs =>
    obtain ⟨spawner, found⟩ := Option.isSome_iff_exists.mp there
    have ordered := inOrder.office found
    obtain ⟨sound, keeps, _, custody⟩ := Office.step_inOrder _ _ ordered step
    obtain ⟨⟨spares, added, same, new⟩, -⟩ := Office.step_changes ordered step
    refine ⟨sound, keeps, ?_⟩
    show Custodies office.world office.traffic.settled
      (Function.update before.deposits id office.deposits)
    rw [same] at custody ⊢
    exact inOrder.custodies.acting found spares custody new fun kept member handle names _ held =>
      theirs kept member handle names held
  | keep frame table world traffic has ends =>
    obtain ⟨sound, -, rfl, settles⟩ :=
      ends.same inOrder.sound (LazyTable.acts_create frame _ _)
    refine ⟨sound, keeps_of_settled inOrder settles rfl, ?_⟩
    show Custodies _ traffic.settled before.deposits
    rw [settles]
    refine inOrder.custodies.keeping _ fun kept member => ?_
    rcases List.mem_append.mp member with old | new
    · exact inOrder.custodies.tables kept old
    · obtain rfl := List.mem_singleton.mp new
      refine ⟨fun handle own => ?_, fun copy none => by cases none⟩
      obtain ⟨deposit, listed, same, held⟩ := has handle own
      exact ⟨deposit, listed, same, fun _ => ⟨held, trivial⟩⟩
  | settle id key answer world traffic there ends =>
    obtain ⟨spawner, found⟩ := Option.isSome_iff_exists.mp there
    cases there : before.world.tables[key.index]? with
    | none =>
      obtain ⟨sound, -, rfl, settles⟩ := ends.same inOrder.sound (LazyTable.settle_missing id there)
      refine ⟨sound, keeps_of_settled inOrder settles rfl, ?_⟩
      show Custodies _ traffic.settled (Function.update _ _ _)
      rw [settles, LazyTable.copied_eq_nil, List.append_nil, Function.update_eq_self]
      · exact inOrder.custodies
      · intro kept _ known
        cases there.symm.trans known
    | some kept =>
      obtain ⟨_, _, last, acts, registered, -, -, all, -⟩ :=
        inOrder.custodies.settles inOrder.keeps found key there
      obtain ⟨sound, -, rfl, settles⟩ := ends.same inOrder.sound acts
      refine ⟨sound, keeps_of_settled inOrder settles registered, ?_⟩
      show Custodies _ traffic.settled (Function.update _ _ _)
      rw [settles]
      exact all

/-- Whatever clients have done, the firm is in order. -/
theorem reached_inOrder (inOrder : before.InOrder)
    (reached : Relation.ReflTransGen (Step mayEnd) before after) : after.InOrder := by
  induction reached with
  | refl => exact inOrder
  | tail _ step inductionHypothesis => exact step_inOrder inductionHypothesis step

section Found

variable {key : LazyKey} {frame : Frame} {handle : Handle}

/-- To make sure of a table that is found changes nothing but that its name is noted. -/
theorem Ends.found {answer : Except Stop ResultId} {world : World} {traffic : Traffic}
    (ends : firm.Ends ((LazyTable.pending key).settle id).run answer world traffic)
    (sound : firm.traffic.IsSound) (finds : firm.world.Finds key frame handle) :
    world.Finds key frame handle := by
  obtain ⟨settled, again⟩ := LazyTable.settle_found id finds
  have acts : Acts ((LazyTable.pending key).settle id).run firm.world firm.traffic.settled
      (.ok handle.id) (firm.world.named key handle.id) firm.traffic.settled := by
    unfold Acts
    rw [settled]
    rfl
  obtain ⟨-, -, rfl, -⟩ := ends.same sound acts
  exact again

/-- A table that is found is found where it was, whatever is done but to end the group. -/
theorem step_finds (inOrder : before.InOrder) (step : Step mayEnd before after)
    (finds : before.world.Finds key frame handle) (stays : ¬ mayEnd handle.owner) :
    after.world.Finds key frame handle := by
  have all := (step_inOrder inOrder step).custodies
  -- A table that lies with a live group is found as long as the group lives on.
  cases step with
  | act id office there step goesOn _ =>
    obtain ⟨spawner, found⟩ := Option.isSome_iff_exists.mp there
    obtain ⟨⟨spares, -⟩, lasts⟩ := Office.step_changes (inOrder.office found) step
    refine inOrder.custodies.finds_later all finds (congrArg (·[key.index]?) spares.keeps.tables) ?_
    intro group live
    by_cases own : handle.owner = id
    · have goes := lasts.resolve_right (goesOn.resolve_left (own ▸ stays))
      exact own ▸ goes group (own ▸ live)
    · exact (spares.group? own).trans live
  | keep kept table world traffic has ends =>
    obtain ⟨-, -, rfl, -⟩ := ends.same inOrder.sound (LazyTable.acts_create kept _ _)
    exact inOrder.custodies.finds_later all finds (List.getElem?_append_left finds.inside)
      fun _ live => live
  | settle id other answer world traffic there ends =>
    by_cases same : other = key
    · subst same
      exact ends.found inOrder.sound finds
    · obtain ⟨spawner, found⟩ := Option.isSome_iff_exists.mp there
      cases there : before.world.tables[other.index]? with
      | none =>
        obtain ⟨-, -, rfl, -⟩ := ends.same inOrder.sound (LazyTable.settle_missing id there)
        exact finds
      | some kept =>
        obtain ⟨_, _, last, acts, -, lasts, others, -, -⟩ :=
          inOrder.custodies.settles inOrder.keeps found other there
        obtain ⟨-, -, rfl, -⟩ := ends.same inOrder.sound acts
        have apart : key.index ≠ other.index := fun index => same (by cases other; cases index; rfl)
        exact inOrder.custodies.finds_later all finds (others _ apart) (lasts _)

/-- So it is over many actions. -/
theorem reached_finds (inOrder : before.InOrder)
    (reached : Relation.ReflTransGen (Step mayEnd) before after)
    (finds : before.world.Finds key frame handle) (stays : ¬ mayEnd handle.owner) :
    after.world.Finds key frame handle := by
  induction reached with
  | refl => exact finds
  | tail begun step inductionHypothesis =>
    exact step_finds (reached_inOrder inOrder begun) step inductionHypothesis stays

end Found

/-- Every rank of the live group of a spawner stores its partition under this name, once it has
taken what lies ahead of it. -/
structure Stores (firm : Firm) (id : SpawnerId) (name : ResultId) (group : Group)
    (partition : Nat → Batch) : Prop where
  live : firm.world.group? id = some group
  manned : 0 < group.size
  usable : group.isUnusable = false
  stored : ∃ stores, firm.traffic.settled.AtRest group stores ∧
    ∀ rank < group.size, (stores rank).find? name = some (partition rank)

section Stored

variable {key : LazyKey} {frame : Frame} {handle : Handle}

/-- A table that is found is stored by the live group of the owner of the handle. -/
theorem InOrder.stores (inOrder : firm.InOrder) (finds : firm.world.Finds key frame handle) :
    ∃ group, ∃ deposit ∈ firm.deposits handle.owner, deposit.handle = handle ∧
      firm.Stores handle.owner handle.id group deposit.partition ∧
      (frame.handle? = some handle ∨
        ∃ table, frame = .collected table ∧ deposit.partition = table.block group.size) := by
  obtain ⟨kept, there, rfl, used⟩ := finds
  have known := inOrder.custodies.tables kept (List.mem_of_getElem? there)
  obtain ⟨live, cases⟩ := PendingTable.resident?_cases used
  obtain ⟨group, running, own⟩ := (inOrder.custodies.isLive_iff handle).mp live
  have stored {deposit : Deposit} (member : deposit ∈ firm.deposits handle.owner)
      (same : deposit.handle = handle) (held : firm.world.IsHeld handle) :
      firm.Stores handle.owner handle.id group deposit.partition := by
    subst same
    obtain ⟨spawner, found⟩ := inOrder.custodies.there member
    have custody := inOrder.custodies.custody _ spawner found
    obtain ⟨manned, usable, -, stores, rests, -⟩ :=
      custody.attended group (custody.group?_eq.symm.trans running)
    exact ⟨running, manned, usable, stores, rests, fun rank inside =>
      custody.stored running rests member own held inside⟩
  obtain frames | ⟨copy, member, own⟩ := cases
  · obtain ⟨deposit, member, same, held⟩ := known.frame handle frames
    exact ⟨group, deposit, member, same, stored member same (held live).1, .inl frames⟩
  · obtain ⟨table, another, here, ownToo, deposit, listed, same, held⟩ := known.copy copy member
    obtain rfl := Option.some.inj (own.symm.trans ownToo)
    exact ⟨group, deposit, listed, same, stored listed same (held live).1,
      .inr ⟨table, here, (held live).2 group running⟩⟩

/-- What was handed out by one spawner is stored by no group of another one. -/
theorem InOrder.stores_only (inOrder : firm.InOrder) {deposit : Deposit}
    (member : deposit ∈ firm.deposits deposit.handle.owner) {group : Group}
    {partition : Nat → Batch} (stores : firm.Stores id deposit.handle.id group partition) :
    id = deposit.handle.owner := by
  obtain ⟨live, manned, -, stores, rests, stored⟩ := stores
  obtain ⟨spawner, found, -⟩ := Option.bind_eq_some_iff.mp ((World.group?_eq _ _).symm.trans live)
  have custody := inOrder.custodies.custody id spawner found
  obtain ⟨-, -, -, others, restsToo, stocks⟩ :=
    custody.attended group (custody.group?_eq.symm.trans live)
  have first := stored 0 manned
  rw [rests.unique restsToo 0 manned] at first
  obtain ⟨another, listed, -, named, -⟩ := (stocks 0 manned _ _).mp first
  by_contra apart
  exact (inOrder.custodies.apart id _ apart another listed deposit member).names named

/-- The partitions of a result that a frame stands for make up the table that is fetched. -/
theorem InOrder.fetched (inOrder : firm.InOrder) {partitioned : Partitioned} {deposit : Deposit}
    (member : deposit ∈ firm.deposits deposit.handle.owner)
    (held : firm.world.isLive deposit.handle = true → firm.world.IsHeld deposit.handle)
    {whole : Batch} {world : World} {traffic : Traffic}
    (ends : firm.Ends (Frame.distributed partitioned deposit.handle).table.run (.ok whole) world
      traffic) :
    ∃ group, firm.world.group? deposit.handle.owner = some group ∧
      Group.joinPartitions ((List.range group.size).map deposit.partition) = .ok whole := by
  obtain ⟨spawner, found⟩ := inOrder.custodies.there member
  have custody := inOrder.custodies.custody _ spawner found
  obtain ⟨answer, _, last, acts, -, -, joins⟩ := custody.gather deposit member
  obtain ⟨-, same, -⟩ := ends.same inOrder.sound acts
  have live : firm.world.isLive deposit.handle = true := by
    by_contra lost
    exact deposit.handle.gather_lost inOrder.custodies.notes (Bool.eq_false_of_not_eq_true lost) whole
      (same ▸ acts)
  obtain ⟨group, running, own⟩ := (inOrder.custodies.isLive_iff _).mp live
  refine ⟨group, running, ?_⟩
  have joined := same.trans (joins (held live) group running own)
  cases parts : Group.joinPartitions ((List.range group.size).map deposit.partition) with
  | ok table =>
    rw [parts] at joined
    exact congrArg _ (Except.ok.inj joined).symm
  | error failure =>
    rw [parts] at joined
    cases joined

end Stored

/-- What one can rely on when a table that is kept with its frame was made sure of. -/
structure IsSettled (firm after : Firm) (home : SpawnerId) (key : LazyKey) (frame : Frame)
    (name : ResultId) : Prop where
  /-- The live group of its home stores the table that can be fetched from the frame. -/
  stored : ∃ group partition, after.Stores home name group partition ∧
    ∀ whole world traffic, firm.Ends frame.table.run (.ok whole) world traffic →
      group.MakesUp partition whole
  /-- The group of no other spawner stores anything under the name. -/
  only : ∀ other group partition, after.Stores other name group partition → other = home
  /-- As long as the group is not ended, the name stays the same for all spawners, and nothing is
  sent. -/
  again : ∀ later, Relation.ReflTransGen (Step (· ≠ home)) after later → ∀ other, ∃ world,
    ((LazyTable.pending key).settle other).run.run later.world = .done (.ok name, world)

section Settled

variable {added : List Deposit} {world : World} {traffic : Traffic} {kept : PendingTable}
  (inOrder : firm.InOrder)
  (inOrderThen : (firm.after id world traffic (firm.deposits id ++ added)).InOrder)
  (there : kept ∈ firm.world.tables) (lasts : firm.world.Lasts world)

include inOrder inOrderThen there lasts

/-- The partitions on the workers make up what is fetched from the frame. -/
theorem InOrder.makesUp {deposit : Deposit}
    (member : deposit ∈ Function.update firm.deposits id (firm.deposits id ++ added)
      deposit.handle.owner)
    {group : Group} (live : world.group? deposit.handle.owner = some group) (manned : 0 < group.size)
    (lies : kept.frame.handle? = some deposit.handle ∨
      ∃ table, kept.frame = .collected table ∧ deposit.partition = table.block group.size)
    {whole : Batch} {later : World} {between : Traffic}
    (fetches : firm.Ends kept.frame.table.run (.ok whole) later between) :
    group.MakesUp deposit.partition whole := by
  obtain own | ⟨table, here, blocks⟩ := lies
  · cases here : kept.frame with
    | collected table => cases (here ▸ own : (Frame.collected table).handle? = _)
    | distributed partitioned handle =>
      obtain rfl : handle = deposit.handle :=
        Option.some.inj (here ▸ own : (Frame.distributed partitioned handle).handle? = _)
      -- What was handed out before is still on the record, and there it is the only one of its handle.
      obtain ⟨before, listed, same, held⟩ := (inOrder.custodies.tables kept there).frame _ own
      have listedThen : before ∈ Function.update firm.deposits id (firm.deposits id ++ added)
          before.handle.owner := Custodies.mem_update added (same ▸ listed)
      obtain ⟨_, found⟩ := inOrderThen.custodies.there member
      obtain rfl := Deposit.eq_of_key (inOrderThen.custodies.custody _ _ found).apart
        (same ▸ listedThen) member (congrArg Handle.key same)
      rw [here] at fetches
      obtain ⟨group, running, joined⟩ := inOrder.fetched listed (fun live => (held live).1) fetches
      obtain rfl := Option.some.inj ((lasts _ group running).symm.trans live)
      exact .inl joined
  · rw [here] at fetches
    obtain ⟨-, same, -⟩ := fetches.same inOrder.sound (rfl : Acts (Frame.collected table).table.run
      firm.world firm.traffic.settled (.ok table) firm.world firm.traffic.settled)
    obtain rfl := Except.ok.inj same
    rw [blocks]
    exact group.makesUp_blocks manned whole

/-- A table that is found is settled at the owner of the handle. -/
theorem InOrder.isSettled {key : LazyKey} {handle : Handle}
    (finds : world.Finds key kept.frame handle) :
    firm.IsSettled (firm.after id world traffic (firm.deposits id ++ added)) handle.owner key
      kept.frame handle.id := by
  obtain ⟨group, deposit, member, rfl, stores, lies⟩ := inOrderThen.stores finds
  refine ⟨⟨group, deposit.partition, stores, fun whole _ _ fetches => ?_⟩,
    fun other _ _ => inOrderThen.stores_only member, fun later goesOn other => ?_⟩
  · exact inOrder.makesUp inOrderThen there lasts member stores.live stores.manned lies fetches
  · have again := reached_finds inOrderThen goesOn finds (not_not.mpr rfl)
    exact ⟨_, (LazyTable.settle_found other again).1⟩

end Settled

/-- To make sure of a table always comes to an end, and it succeeds exactly if the table is at hand.
Then the table lies with its home, and it need not be put there again. -/
theorem settled_at_home (first firm : Firm) (opening : first.IsOpening)
    (reached : Relation.ReflTransGen (Step fun _ => True) first firm) (id : SpawnerId)
    (there : (firm.world.spawner? id).isSome) (key : LazyKey) :
    ∃ answer, (firm.office id).Always ((LazyTable.pending key).settle id).run answer ∧
      ((∃ name, answer = .ok name) ↔
        ∃ kept, firm.world.tables[key.index]? = some kept ∧ kept.IsAtHand firm.world id) ∧
      ∀ name world traffic,
        firm.Ends ((LazyTable.pending key).settle id).run (.ok name) world traffic →
        ∃ kept, firm.world.tables[key.index]? = some kept ∧
          firm.IsSettled (firm.after id world traffic
              (firm.deposits id ++ (LazyTable.pending key).copied firm.world world))
            (kept.home firm.world id) key kept.frame name := by
  have inOrder := reached_inOrder opening.inOrder reached
  obtain ⟨spawner, found⟩ := Option.isSome_iff_exists.mp there
  cases known : firm.world.tables[key.index]? with
  | none =>
    have fails : Acts _ firm.world firm.traffic.settled _ _ _ := LazyTable.settle_missing id known
    refine ⟨_, Office.Always.of_acts inOrder.sound fails, ⟨?_, ?_⟩, fun name _ _ ends => ?_⟩
    · rintro ⟨name, named⟩
      cases named
    · rintro ⟨kept, none, -⟩
      cases none
    · obtain ⟨-, same, -⟩ := ends.same inOrder.sound fails
      cases same
  | some kept =>
    obtain ⟨answer, later, last, acts, -, lasts, -, -, atHand, finds⟩ :=
      inOrder.custodies.settles inOrder.keeps found key known
    refine ⟨answer, Office.Always.of_acts inOrder.sound acts, ⟨?_, ?_⟩, fun name _ traffic ends => ?_⟩
    · exact fun named => ⟨kept, rfl, atHand.mp named⟩
    · rintro ⟨_, same, ready⟩
      obtain rfl := Option.some.inj same
      exact atHand.mpr ready
    · have step : Step (fun _ => True) firm _ := .settle firm id key _ _ traffic there ends
      obtain ⟨-, same, rfl, -⟩ := ends.same inOrder.sound acts
      obtain ⟨handle, finds, rfl, own⟩ := finds name same.symm
      refine ⟨kept, rfl, own ▸ ?_⟩
      exact inOrder.isSettled (step_inOrder inOrder step) (List.mem_of_getElem? known) lasts finds

end Firm

/-! Two spawners. A table is put onto the workers of one, and made sure of for the other. -/

namespace Lending

/-- The spawner whose workers have the table. -/
def lender : SpawnerId := ⟨0⟩

/-- The spawner for which the table is made sure of. -/
def borrower : SpawnerId := ⟨1⟩

/-- Both spawners start groups of two workers, and none has been started. -/
def opening : Firm where
  world := { spawners := List.replicate 2 { options := { workers := some 2 } } }
  traffic := Exchange.nobody .builtins
  deposits := fun _ => []

/-- Nothing has been done with either spawner. -/
theorem isOpening : opening.IsOpening where
  sound := Exchange.nobody_isSound .builtins
  keeps := ⟨rfl, Nat.succ_pos _⟩
  idle id spawner found := by
    obtain ⟨there, -⟩ := Option.filter_eq_some_iff.mp found
    obtain rfl := List.eq_of_mem_replicate (List.mem_of_getElem? there)
    exact ⟨rfl, rfl, rfl⟩
  nothing := rfl
  empty := rfl

/-- The table that lies on the workers of the lender is kept. -/
theorem keeps : ∃ firm frame handle, Relation.ReflTransGen (Firm.Step fun _ => True) opening firm ∧
    firm.world.tables = [{ frame }] ∧ frame.handle? = some handle ∧ handle.owner = lender ∧
    firm.world.isLive handle = true ∧ (firm.world.spawner? borrower).isSome := by
  have runs : (((lender.scatterWhile {} Scattering.table).run.run opening.world).run Fleet.outside
      opening.traffic.settled).map (fun ended =>
        ((ended.1.1.toOption.bind Frame.handle?).map fun handle =>
          (handle.owner, handle.key, ended.1.2.isLive handle),
        ended.1.2.shares, ended.1.2.tables, (ended.1.2.spawner? borrower).isSome)) =
      some (some (lender, 0, true), [1], [], true) := by
    decide +kernel
  obtain ⟨⟨⟨answer, later⟩, fleet⟩, ended, same⟩ := Option.map_eq_some_iff.mp runs
  obtain ⟨named, shares, empty, there⟩ : _ ∧ later.shares = [1] ∧ later.tables = [] ∧
      (later.spawner? borrower).isSome = true := by
    simpa only [Prod.mk.injEq] using same
  obtain ⟨handle, frames, owns⟩ := Option.map_eq_some_iff.mp named
  obtain ⟨frame, answered, own⟩ := Option.bind_eq_some_iff.mp frames
  obtain ⟨owner, key, live⟩ : handle.owner = lender ∧ handle.key = 0 ∧
      later.isLive handle = true := by
    simpa only [Prod.mk.injEq] using owns
  obtain ⟨partitioned, rfl⟩ : ∃ partitioned, frame = .distributed partitioned handle := by
    cases frame with
    | collected table => cases own
    | distributed partitioned other => exact ⟨partitioned, by rw [Option.some.inj own]⟩
  obtain rfl : answer = .ok (.distributed partitioned handle) := by
    cases answer with
    | error stop => cases answered
    | ok frame => rw [Option.some.inj answered]
  obtain ⟨last, reached, -⟩ := Traffic.end_reached
    (opening.traffic, (lender.scatterWhile {} Scattering.table).run.run opening.world) (_, later) fleet
    isOpening.sound ended
  have scatters : Office.Step lender (opening.office lender) _ :=
    .scatter (opening.office lender) {} Scattering.table _ later last (List.forall_mem_nil _) reached
  have acts : Firm.Step (fun _ => True) opening _ :=
    .act opening lender _ rfl scatters (.inl trivial) fun kept member => by cases member
  refine ⟨_, .distributed partitioned handle, handle, (Relation.ReflTransGen.single acts).tail
    (.keep _ (.distributed partitioned handle) _ _ last ?_ .refl), ?_, rfl, owner, live, there⟩
  · intro other same
    obtain rfl := Option.some.inj same
    refine ⟨{ handle, partition := Scattering.table.block partitioned.partitionRows.length }, ?_, rfl, 0,
      ?_⟩
    · rw [owner]
      exact List.mem_singleton_self _
    · show later.shares[handle.key]? = some 1
      rw [shares, key]
      rfl
  · show later.tables ++ _ = _
    rw [empty]
    rfl

end Lending

/-- The table that is made sure of for the borrower lies with the lender. -/
theorem Firm.lent_settled : ∃ firm : Firm, ∃ name world traffic frame,
    Relation.ReflTransGen (Step fun _ => True) Lending.opening firm ∧
    (firm.world.spawner? Lending.borrower).isSome ∧
    firm.Ends ((LazyTable.pending ⟨0⟩).settle Lending.borrower).run (.ok name) world traffic ∧
    firm.IsSettled (firm.after Lending.borrower world traffic
        (firm.deposits Lending.borrower ++ (LazyTable.pending ⟨0⟩).copied firm.world world))
      Lending.lender ⟨0⟩ frame name := by
  obtain ⟨firm, frame, handle, reached, tables, own, owner, live, there⟩ := Lending.keeps
  have kept : firm.world.tables[0]? = some { frame := frame } := by
    rw [tables]
    rfl
  have used : ({ frame := frame } : PendingTable).resident? firm.world = some handle := by
    rw [PendingTable.resident?, own, Option.filter_some, if_pos live]
    rfl
  have finds : firm.world.Finds ⟨0⟩ frame handle := ⟨_, kept, rfl, used⟩
  have ends : firm.Ends ((LazyTable.pending ⟨0⟩).settle Lending.borrower).run (.ok handle.id)
      (firm.world.named ⟨0⟩ handle.id) firm.traffic := by
    rw [Ends, (LazyTable.settle_found Lending.borrower finds).1]
  obtain ⟨_, -, -, settles⟩ :=
    settled_at_home Lending.opening firm Lending.isOpening reached Lending.borrower there ⟨0⟩
  obtain ⟨found, same, settled⟩ := settles _ _ _ ends
  obtain rfl := Option.some.inj (kept.symm.trans same)
  have home : ({ frame := frame } : PendingTable).home firm.world Lending.borrower = Lending.lender := by
    rw [PendingTable.home, used]
    exact owner
  exact ⟨firm, _, _, _, frame, reached, there, ends, home ▸ settled⟩

/-! A connection that fails. What is done with a table that is found does not depend on whether its
group can still be used. -/

namespace Stranding

/-- Makes sure of a table twice. In between the only share of another result is given up. -/
def acting : Acting (Except Stop ResultId) := do
  let id ← SpawnerId.create { workers := some 1 }
  let table ← LazyTable.create (.collected Scattering.table)
  let _ ← (table.settle id).run
  let _ ← (id.submit { name := "echo" } {}).run
  Handle.release { key := 1, id := .ofOutput (.ofCounter 1) 0, generation := 1, owner := id }
  (table.settle id).run

/-- What a worker answers in a call that leaves a partition with it. -/
def heard (rows : Nat) (schema : Schema) : List Message :=
  [.completed, .status none, .outputShape .distributed, .partitionMeta (some { rows, schema })]

/-- A worker that answers so, over a connection that breaks after some messages. It is counted how
many were to be sent. -/
def outside (whole : Nat) : Outside (Nat × List Message) where
  launch _ _ state := some (.ok ⟨0⟩, state)
  send _ _ _ state :=
    some (if state.1 < whole then .ok () else .error { message := "" }, state.1 + 1, state.2)
  receive _ _ state := state.2.head?.map fun message => (.ok message, state.1, state.2.tail)
  shutdown _ state := some (.ok (), state)

/-- The connection breaks at the message that would free the other result. The table is made sure of
again under its name, without a further message, although the group cannot be used any more. -/
theorem settled_unusable : ((acting.run {}).run (outside 11)
    (0, heard 3 Scattering.table.schema ++ heard 0 { fields := [] })).map (fun ended =>
      (ended.1.1.toOption, (ended.1.2.group? ⟨0⟩).map Group.isUnusable, ended.2.1)) =
    some (some (.ofOutput (.ofCounter 0) 0), some true, 12) := by
  decide +kernel

end Stranding

end Rankwise

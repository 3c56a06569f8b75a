import Rankwise.Proofs.Clients
import Rankwise.Proofs.Sparing

/-!
# What an action of a client changes

An action of a client of a spawner spares all other spawners, hands out only what is new, and gives
up shares only of what was handed out to clients of this spawner. The live group of the spawner goes
on, unless the action is to end it (`Office.step_changes`).
-/

namespace Rankwise

/-- The key is one of those of what was handed out. -/
def Deposit.Keys (deposits : List Deposit) (key : Nat) : Prop :=
  ∃ deposit ∈ deposits, deposit.handle.key = key

/-! The live group goes on. -/

namespace Handle

/-- To give up a share while the group is in use asks nobody and changes what it is meant to. -/
theorem acts_abandon {handle : Handle} {world later : World} {fleet last : Fleet}
    (acts : Acts handle.abandon world fleet () later last) :
    later = world.abandoned handle ∧ last = fleet := by
  unfold Acts at acts
  rw [run_abandon] at acts
  obtain ⟨same, rfl⟩ := Prod.mk.inj (Option.some.inj acts)
  exact ⟨(Prod.mk.inj same).2.symm, rfl⟩

/-- Giving up shares does not change which group is live. -/
theorem group?_abandonAll (id : SpawnerId) (handles : List Handle) {world later : World}
    {fleet last : Fleet} (acts : Acts (handles.forM abandon) world fleet () later last) :
    later.group? id = world.group? id := by
  induction handles generalizing world fleet with
  | nil =>
    obtain ⟨-, rfl, -⟩ := acts.unique (Acts.pure () world fleet)
    rfl
  | cons handle rest inductionHypothesis =>
    obtain ⟨_, middle, between, first, further⟩ := acts.of_bind
    obtain ⟨rfl, rfl⟩ := acts_abandon first
    exact (inductionHypothesis further).trans (world.group?_abandoned handle id)

/-- A handle that is new later was new before. -/
theorem IsNew.mono {handle : Handle} {world later : World} {touches : Nat → Prop}
    (new : handle.IsNew later) (keeps : World.Keeps touches world later) : handle.IsNew world where
  keyed := keeps.keys.trans new.keyed
  named := by
    obtain ⟨call, after, leaf, named⟩ := new.named
    exact ⟨call, keeps.calls.trans after, leaf, named⟩

end Handle

namespace Custody

variable {id : SpawnerId} {world later : World} {spawner : Spawner} {fleet last : Fleet}
  {deposits : List Deposit} {group : Group}

/-- The spawner that is on record is steady. -/
theorem steady (custody : Custody id world spawner fleet deposits) : spawner.IsSteady where
  noted _ := custody.noted
  going group live := by
    have usable := (custody.attended group (Spawner.group?_eq_some.mp live).2).usable
    exact (Bool.or_eq_false_iff.mp usable).1
  passed group live := (custody.attended group (Spawner.group?_eq_some.mp live).2).dated

/-- The spawner stands on record in the world. -/
theorem record? (custody : Custody id world spawner fleet deposits) :
    world.record? id = some spawner :=
  (World.spawner?_eq_some.mp custody.found).1

/-- What stays within the bounds of the spawner spares all others. -/
theorem spares (custody : Custody id world spawner fleet deposits) {α : Type} {acting : Acting α}
    {touches : Nat → Prop} {value : α} (within : Within (· = id) touches acting)
    (acts : Acts acting world fleet value later last) : id.Spares touches world fleet later last :=
  (within.spares custody.record? custody.steady acts).1

/-- To prepare a call leaves the live group as it is. -/
theorem prepareWhile_lasts (custody : Custody id world spawner fleet deposits)
    (meanwhile : Meanwhile) (concerns : meanwhile.Concerns deposits) {answer : Except Stop Unit}
    (acts : Acts (id.prepareWhile meanwhile).run world fleet answer later last)
    (live : world.group? id = some group) : later.group? id = some group := by
  have ensured : Acts id.ensureGroup.run world fleet (.ok ()) world fleet := by
    unfold Acts
    rw [id.run_ensureGroup_live world group live]
    rfl
  obtain ⟨second, _, early, keptEarly⟩ := custody.abandonAll meanwhile.early fun handle member =>
    concerns handle (List.mem_append_left _ (List.mem_append_left _ member))
  obtain ⟨_, flushed, keptFlushed, -⟩ := keptEarly.flush
  obtain ⟨_, _, late, -⟩ := keptFlushed.abandonAll meanwhile.late fun handle member =>
    concerns handle (List.mem_append_left _ (List.mem_append_right _ member))
  obtain ⟨-, rfl, -⟩ := acts.unique (Acts.bindOk ensured (Acts.bindOk (Acts.lift early)
    (Acts.bindOk (Acts.lift flushed) (Acts.lift late))))
  rw [Handle.group?_abandonAll id _ late, World.group?_emptied, Handle.group?_abandonAll id _ early]
  exact live

/-- A call hands out only what is new, and the live group goes on. -/
theorem submitWhile_adds (custody : Custody id world spawner fleet deposits)
    (meanwhile : Meanwhile) (concerns : meanwhile.Concerns deposits) (computation : Computation)
    (arguments : CallArguments)
    (comes : ∀ ready last, Acts (id.prepareWhile meanwhile).run world fleet (.ok ()) ready last →
      ∃ outcome, id.ComesTo computation arguments ready last outcome)
    {result : Except Stop (CallArguments × Except Failure Answer)}
    (acts : Acts (id.submitWhile meanwhile computation arguments).run world fleet result later last) :
    (∀ handle ∈ SpawnerId.handed result, handle.IsNew world) ∧
      ∀ group, world.group? id = some group → later.group? id = some group := by
  obtain ⟨answer, ready, between, middle, prepared, kept, -⟩ :=
    custody.prepareWhile meanwhile concerns
  have lasts (group : Group) (live : world.group? id = some group) : ready.group? id = some group :=
    custody.prepareWhile_lasts meanwhile concerns prepared live
  -- The preparation has failed, or the call has, or it was answered and the last handles are given
  -- up.
  cases answer with
  | error stop =>
    obtain ⟨rfl, rfl, -⟩ := acts.unique (Acts.bindError prepared)
    exact ⟨List.forall_mem_nil _, lasts⟩
  | ok _ =>
    have within : Within (· = id) (fun _ => True) (id.prepareWhile meanwhile).run := by
      refine id.within_prepareWhile ?_ meanwhile fun handle member => ?_
      · rfl
      · obtain ⟨deposit, listed, rfl⟩ := concerns handle member
        exact ⟨(custody.recorded deposit listed).owned, trivial⟩
    have keeps := (custody.spares within prepared).keeps
    obtain ⟨outcome, comes⟩ := comes ready middle prepared
    obtain ⟨called, performed, left, performs, keptToo, -, same, new⟩ :=
      kept.perform computation arguments outcome comes
    have lastsToo (group : Group) (live : world.group? id = some group) :
        performed.group? id = some group := same.trans (lasts group live)
    cases called with
    | error stop =>
      obtain ⟨rfl, rfl, -⟩ := acts.unique (Acts.bindOk prepared (Acts.bindError performs))
      exact ⟨List.forall_mem_nil _, lastsToo⟩
    | ok called =>
      obtain ⟨_, _, abandoned, -⟩ := keptToo.abandonAll meanwhile.last fun handle member => by
        obtain ⟨deposit, known, own⟩ := concerns handle (List.mem_append_right _ member)
        exact ⟨deposit, List.mem_append_left _ known, own⟩
      obtain ⟨rfl, rfl, -⟩ := acts.unique (Acts.bindOk prepared (Acts.bindOk performs
        (Acts.bindOk (Acts.lift abandoned) rfl)))
      refine ⟨fun handle member => (new handle member).mono keeps, fun group live => ?_⟩
      rw [Handle.group?_abandonAll id _ abandoned]
      exact lastsToo group live

/-- Giving up a share leaves the live group as it is. -/
theorem release_lasts (custody : Custody id world spawner fleet deposits) {deposit : Deposit}
    (member : deposit ∈ deposits) (acts : Acts deposit.handle.release world fleet () later last) :
    later.group? id = world.group? id := by
  have owned := (custody.recorded deposit member).owned
  obtain ⟨middle, between, abandoned, kept⟩ := custody.abandon deposit member
  have same : middle.group? id = world.group? id := by
    obtain ⟨rfl, -⟩ := Handle.acts_abandon abandoned
    exact world.group?_abandoned deposit.handle id
  rcases deposit.handle.acts_release spawner (owned ▸ custody.found) abandoned with
    released | released
  · obtain ⟨-, rfl, -⟩ := acts.unique released
    exact same
  · obtain ⟨left, flushed, -⟩ := kept.flush
    have frees : Acts deposit.handle.owner.flush middle fleet () (middle.emptied id) left := by
      rw [owned]
      exact flushed
    obtain ⟨-, rfl, -⟩ := acts.unique (released _ _ frees)
    exact (middle.group?_emptied id).trans same

section Frames

variable (frame : Frame)
  (known : ∀ handle, frame.handle? = some handle → ∃ deposit ∈ deposits, deposit.handle = handle)

include known

/-- What is done with a frame leaves the live group as it is. -/
theorem releaseFrame_lasts (custody : Custody id world spawner fleet deposits)
    (acts : Acts frame.release world fleet () later last) : later.group? id = world.group? id := by
  cases frame with
  | collected table =>
    obtain ⟨-, rfl, -⟩ := acts.unique (Acts.pure () _ _)
    rfl
  | distributed partitioned handle =>
    obtain ⟨deposit, member, rfl⟩ := known handle rfl
    exact custody.release_lasts member acts

/-- To fetch a frame leaves the live group as it is. -/
theorem fetchFrame_lasts (custody : Custody id world spawner fleet deposits)
    {answer : Except Stop Batch} (acts : Acts frame.table.run world fleet answer later last) :
    later.group? id = world.group? id ∧ ∃ after, Custody id later after last deposits := by
  cases frame with
  | collected table =>
    obtain ⟨-, rfl, rfl⟩ := acts.unique (Acts.pure _ _ _)
    exact ⟨rfl, spawner, custody⟩
  | distributed partitioned handle =>
    obtain ⟨deposit, member, rfl⟩ := known handle rfl
    obtain ⟨_, after, _, fetched, kept, -⟩ := custody.gather deposit member
    obtain ⟨-, rfl, rfl⟩ := acts.unique fetched
    exact ⟨world.group?_emptied id, after, kept⟩

/-- To fetch a frame and give it up leaves the live group as it is. -/
theorem collectFrame_lasts (custody : Custody id world spawner fleet deposits)
    {answer : Except Stop Frame} (acts : Acts frame.collect.run world fleet answer later last) :
    later.group? id = world.group? id := by
  obtain ⟨fetched, middle, between, fetches, rest⟩ := acts.of_bind
  obtain ⟨same, _, kept⟩ := custody.fetchFrame_lasts frame known fetches
  cases fetched with
  | error stop =>
    obtain ⟨-, rfl, -⟩ := rest.unique (Acts.pure _ _ _)
    exact same
  | ok table =>
    obtain ⟨_, _, _, released, -⟩ := kept.releaseFrame frame known
    obtain ⟨-, rfl, -⟩ := rest.unique (Acts.bindOk (Acts.lift released) rfl)
    exact (kept.releaseFrame_lasts frame known released).trans same

end Frames

/-- Shares that are given up during a call are of what was handed out. -/
theorem isWithin (custody : Custody id world spawner fleet deposits) {meanwhile : Meanwhile}
    (concerns : meanwhile.Concerns deposits) :
    meanwhile.IsWithin (· = id) (Deposit.Keys deposits) := by
  intro handle member
  obtain ⟨deposit, listed, rfl⟩ := concerns handle member
  exact ⟨(custody.recorded deposit listed).owned, deposit, listed, rfl⟩

/-- Putting a table onto the workers spares all other spawners and hands out only what is new, and
the live group goes on. -/
theorem scatterWhile_adds (custody : Custody id world spawner fleet deposits)
    (keeps : fleet.registry.KeepsTables) (meanwhile : Meanwhile)
    (concerns : meanwhile.Concerns deposits) {touches : Nat → Prop}
    (isWithin : meanwhile.IsWithin (· = id) touches) (table : Batch) {answer : Except Stop Frame}
    (acts : Acts (id.scatterWhile meanwhile table).run world fleet answer later last) :
    id.Spares touches world fleet later last ∧
      (∀ deposit ∈ Deposit.ofBlocks table answer, deposit.handle.IsNew world) ∧
      ∀ group, world.group? id = some group → later.group? id = some group := by
  obtain ⟨result, _, _, _, _, submitted, scattered, handed, -⟩ :=
    custody.submitsScatter keeps meanwhile concerns table
  obtain ⟨rfl, rfl, rfl⟩ := acts.unique scattered
  obtain ⟨new, lasts⟩ := custody.submitWhile_adds meanwhile concerns _ _
    (fun ready between prepared => by
      obtain ⟨_, _, _, _, preparedToo, -, registered⟩ := custody.prepareWhile meanwhile concerns
      obtain ⟨-, rfl, rfl⟩ := prepared.unique preparedToo
      exact ⟨_, id.comesTo_scatter _ _ (registered.symm ▸ keeps) table⟩) submitted
  refine ⟨custody.spares ?_ submitted, fun deposit member => new _ (handed deposit member), lasts⟩
  refine id.within_submitWhile ?_ meanwhile isWithin _ _
  rfl

end Custody

/-! Actions. -/

namespace Office

variable {α : Type} {id : SpawnerId} {before after : Office}

/-- What acting comes to in some order of steps, it comes to with workers that act at once. -/
theorem Ends.acts {acting : Acting α} {value result : α} {later world : World} {last : Fleet}
    {traffic : Traffic} (ends : before.Ends acting result world traffic)
    (sound : before.traffic.IsSound)
    (acts : Acts acting before.world before.traffic.settled value later last) :
    Acts acting before.world before.traffic.settled result world traffic.settled := by
  obtain ⟨-, -, unique⟩ := Traffic.same_end _ _ _ _ sound acts _ ends
  obtain ⟨same, rfl⟩ := unique _ rfl
  obtain ⟨rfl, rfl⟩ := Prod.mk.inj same
  exact acts

/-- What an action of a client of a spawner changes at most. -/
structure Changes (id : SpawnerId) (before after : Office) : Prop where
  spares : id.Spares (Deposit.Keys before.deposits) before.world before.traffic.settled after.world
    after.traffic.settled
  adds : ∃ added, after.deposits = before.deposits ++ added ∧
    ∀ deposit ∈ added, deposit.handle.IsNew before.world

/-- The group was ended, if there was a live one. -/
def Resets (id : SpawnerId) (before after : Office) : Prop :=
  ∃ answer world traffic, before.Ends id.reset.run answer world traffic ∧
    after = { before with world, traffic }

/-- The live group goes on, or it was ended. -/
def Lasts (id : SpawnerId) (before after : Office) : Prop :=
  (∀ group, before.world.group? id = some group → after.world.group? id = some group) ∨
    Resets id before after

/-- What the frames of a client stand for was handed out to clients of its spawner. -/
theorem Has.isWithin {frame : Frame} {spawner : Spawner} (has : before.Has frame)
    (custody : Custody id before.world spawner before.traffic.settled before.deposits)
    (handle : Handle) (own : frame.handle? = some handle) :
    handle.IsWithin (· = id) (Deposit.Keys before.deposits) := by
  obtain ⟨deposit, member, rfl, -⟩ := has handle own
  exact ⟨(custody.recorded deposit member).owned, deposit, member, rfl⟩

/-- The handle of a frame that the client has is one that was handed out. -/
theorem Has.known {frame : Frame} (has : before.Has frame) (handle : Handle)
    (own : frame.handle? = some handle) : ∃ deposit ∈ before.deposits, deposit.handle = handle := by
  obtain ⟨deposit, member, same, -⟩ := has handle own
  exact ⟨deposit, member, same⟩

/-- An action of a client spares all other spawners and hands out only what is new, and the live
group goes on unless it is to be ended. -/
theorem step_changes (inOrder : before.InOrder id) (step : Step id before after) :
    Changes id before after ∧ Lasts id before after := by
  obtain ⟨sound, keeps, spawner, custody⟩ := inOrder
  have nothing {world : World} {traffic : Traffic}
      (spares : id.Spares (Deposit.Keys before.deposits) before.world before.traffic.settled world
        traffic.settled) : Changes id before { before with world, traffic } :=
    ⟨spares, [], (List.append_nil _).symm, List.forall_mem_nil _⟩
  -- What a step does is known from the action that belongs to it. Only a reset may end the live
  -- group.
  cases step with
  | scatter meanwhile table answer world traffic concerns ends =>
    obtain ⟨_, _, _, _, acts, -⟩ := custody.scatterWhile keeps meanwhile concerns table
    obtain ⟨spares, new, lasts⟩ :=
      custody.scatterWhile_adds keeps meanwhile concerns (custody.isWithin concerns) table
        (ends.acts sound acts)
    exact ⟨⟨spares, _, rfl, new⟩, .inl lasts⟩
  | submit meanwhile computation arguments outcome result world traffic concerns comes ends =>
    have comesToo (ready : World) (last : Fleet)
        (prepared : Acts (id.prepareWhile meanwhile).run before.world before.traffic.settled (.ok ())
          ready last) : id.ComesTo computation arguments ready last outcome := by
      obtain ⟨between, ended, rfl⟩ := Ends.of_acts sound prepared
      exact comes ready between ended
    obtain ⟨_, _, _, _, acts, -⟩ :=
      custody.submitWhile meanwhile concerns computation arguments outcome comesToo
    have actsHere := ends.acts sound acts
    obtain ⟨new, lasts⟩ := custody.submitWhile_adds meanwhile concerns computation arguments
      (fun ready last prepared => ⟨outcome, comesToo ready last prepared⟩) actsHere
    refine ⟨⟨custody.spares ?_ actsHere, _, rfl, fun deposit member => ?_⟩, .inl lasts⟩
    · refine id.within_submitWhile ?_ meanwhile (custody.isWithin concerns) _ _
      rfl
    · refine new deposit.handle ?_
      rw [← Deposit.map_ofHandles outcome (SpawnerId.handed result)]
      exact List.mem_map_of_mem member
  | share frame world traffic has ends =>
    obtain ⟨_, acts, -⟩ := custody.shareFrame frame has
    have actsHere := ends.acts sound acts
    have within : Within (· = id) (Deposit.Keys before.deposits) frame.share :=
      frame.within_share fun handle own => (has.isWithin custody handle own).keyed
    refine ⟨nothing (custody.spares within actsHere), .inl fun group live => ?_⟩
    cases frame with
    | collected table =>
      obtain ⟨-, rfl, -⟩ := actsHere.unique (Acts.pure _ _ _)
      exact live
    | distributed partitioned handle =>
      obtain ⟨-, rfl, -⟩ := actsHere.unique rfl
      exact live
  | release frame world traffic has ends =>
    obtain ⟨_, _, _, acts, -⟩ := custody.releaseFrame frame has.known
    have actsHere := ends.acts sound acts
    have within := frame.within_release (has.isWithin custody)
    refine ⟨nothing (custody.spares within actsHere), .inl fun group live => ?_⟩
    exact (custody.releaseFrame_lasts frame has.known actsHere).trans live
  | collect frame answer world traffic has ends =>
    obtain ⟨_, _, _, _, acts, -⟩ := custody.collectFrame frame has
    have actsHere := ends.acts sound acts
    have within := frame.within_collect (has.isWithin custody)
    refine ⟨nothing (custody.spares within actsHere), .inl fun group live => ?_⟩
    exact (custody.collectFrame_lasts frame has.known actsHere).trans live
  | fetch frame answer world traffic has ends =>
    obtain ⟨_, _, _, _, acts, -⟩ := custody.fetchFrame frame has
    have actsHere := ends.acts sound acts
    have within : Within (· = id) (Deposit.Keys before.deposits) frame.table.run :=
      frame.within_table fun handle own => (has.isWithin custody handle own).owned
    refine ⟨nothing (custody.spares within actsHere), .inl fun group live => ?_⟩
    exact (custody.fetchFrame_lasts frame has.known actsHere).1.trans live
  | reset answer world traffic ends =>
    obtain ⟨_, _, _, _, acts, -⟩ := custody.reset
    have within : Within (· = id) (Deposit.Keys before.deposits) id.reset.run := by
      refine .part id ?_ .reset _ rfl
      rfl
    exact ⟨nothing (custody.spares within (ends.acts sound acts)),
      .inr ⟨answer, world, traffic, ends, rfl⟩⟩

end Office

end Rankwise

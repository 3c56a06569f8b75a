import Rankwise.Proofs.Coordination
import Rankwise.Proofs.Exchanges

/-!
# Acting with workers that act at once

What comes of acting as the coordinator (`Acts`) where no connection fails and every worker goes on
at once. A spawner is in sync if its live group, if it has one, can be used, its workers wait for a
command and nothing is unread; starting a group and freeing results keep a spawner in sync
(`prepare_inSync`), and making handles for a reply changes no group (`acts_conclude`).
-/

namespace Rankwise

namespace World

/-- The live group, if there is one, can be used, its workers wait for a command, and nothing is
unread. -/
def InSync (world : World) (id : SpawnerId) (fleet : Fleet) : Prop :=
  ∀ group, world.group? id = some group →
    0 < group.size ∧ group.isUnusable = false ∧ ∃ stores, fleet.AtRest group stores

variable {world : World} {id : SpawnerId} {fleet : Fleet}

/-- Where no group is live, there is nobody to be out of step with. -/
theorem inSync_of_idle (idle : world.group? id = none) : world.InSync id fleet := by
  intro group live
  rw [idle] at live
  cases live

/-- What a spawner is in sync with is a matter of its live group only. -/
theorem InSync.of_group {later : World} (inSync : world.InSync id fleet)
    (same : later.group? id = world.group? id) : later.InSync id fleet := by
  intro group live
  exact inSync group (same ▸ live)

/-- The generation that a spawner has noted is that of its live group. -/
def NotesGenerations (world : World) : Prop :=
  ∀ id spawner, world.spawner? id = some spawner →
    spawner.liveGeneration = spawner.live?.map Group.generation

/-- A change of one spawner spares all others. -/
theorem spawner?_change_of_ne (world : World) (id other : SpawnerId) (update : Spawner → Spawner)
    (apart : other ≠ id) : (world.change id update).spawner? other = world.spawner? other := by
  have elsewhere : id.index ≠ other.index := by
    intro same
    apply apart
    obtain ⟨index⟩ := other
    obtain ⟨place⟩ := id
    exact congrArg SpawnerId.mk same.symm
  simp only [spawner?, change, List.getElem?_modify_ne _ _ elsewhere]

/-- A change to a spawner keeps what is noted of generations if it does so for this spawner. -/
theorem NotesGenerations.change (noted : world.NotesGenerations) (id : SpawnerId)
    (update : Spawner → Spawner) (shared : ∀ spawner, (update spawner).owners = spawner.owners)
    (agrees : ∀ spawner, world.spawner? id = some spawner →
      (update spawner).liveGeneration = (update spawner).live?.map Group.generation) :
    (world.change id update).NotesGenerations := by
  intro other spawner found
  by_cases here : other = id
  · subst here
    rw [spawner?_change world other update shared] at found
    obtain ⟨before, foundBefore, rfl⟩ := Option.map_eq_some_iff.mp found
    exact agrees before foundBefore
  · rw [spawner?_change_of_ne world id other update here] at found
    exact noted other spawner found

/-- The live group was noted as it is. -/
theorem NotesGenerations.noted (notes : world.NotesGenerations) (id : SpawnerId) (group : Group)
    (live : world.group? id = some group) : (world.noted id group).NotesGenerations := by
  apply notes.change id (fun spawner => { spawner with state := .live group }) (fun _ => rfl)
  intro spawner found
  rw [group?_eq, found] at live
  have stands := notes id spawner found
  rw [show spawner.live? = some group from live] at stands
  exact stands

/-- What a change does to the live group does not matter where the state stays as it is. -/
theorem NotesGenerations.change_of_state (notes : world.NotesGenerations) (id : SpawnerId)
    (update : Spawner → Spawner) (shared : ∀ spawner, (update spawner).owners = spawner.owners)
    (same : ∀ spawner, (update spawner).live? = spawner.live?)
    (generation : ∀ spawner, (update spawner).liveGeneration = spawner.liveGeneration) :
    (world.change id update).NotesGenerations := by
  apply notes.change id update shared
  intro spawner found
  rw [same, generation]
  exact notes id spawner found

/-- Nothing is to be freed any more. -/
def emptied (world : World) (id : SpawnerId) : World :=
  world.change id fun spawner => { spawner with pending := [] }

/-- The live group stays the same when nothing is left to be freed. -/
theorem group?_emptied (world : World) (id : SpawnerId) :
    (world.emptied id).group? id = world.group? id :=
  world.group?_change_of_state id (fun spawner => { spawner with pending := [] }) (fun _ => rfl)
    fun _ => rfl

/-- A change that leaves the spawner as it is changes nothing. -/
theorem change_eq (world : World) (id : SpawnerId) (update : Spawner → Spawner)
    (same : ∀ spawner, world.spawners[id.index]? = some spawner → update spawner = spawner) :
    world.change id update = world := by
  have spawners : world.spawners.modify id.index update = world.spawners := by
    apply List.ext_getElem?
    intro place
    rw [List.getElem?_modify]
    by_cases here : id.index = place
    · subst here
      cases found : world.spawners[id.index]? with
      | none => rfl
      | some spawner => simp only [if_true, Option.map_eq_map, Option.map_some, same spawner found]
    · simp only [here, if_false, id_map']
  unfold change
  rw [spawners]

/-- To note the live group as it is changes nothing. -/
theorem noted_self (world : World) (id : SpawnerId) (group : Group)
    (live : world.group? id = some group) : world.noted id group = world := by
  apply change_eq
  intro spawner there
  rw [group?_eq] at live
  obtain ⟨known, found, running⟩ := Option.bind_eq_some_iff.mp live
  obtain ⟨thereToo, -⟩ := Option.filter_eq_some_iff.mp found
  obtain rfl := Option.some.inj (there.symm.trans thereToo)
  unfold Spawner.live? at running
  split at running
  case h_1 state =>
    obtain rfl := Option.some.inj running
    rw [← state]
  case h_2 => cases running

end World

/-- Something was done for a spawner: it is in sync afterwards, and nothing else was changed. -/
structure SpawnerId.Tends (id : SpawnerId) (world : World) (fleet : Fleet) (later : World)
    (last : Fleet) : Prop where
  inSync : later.InSync id last
  registered : last.registry = fleet.registry
  kept : later.tables = world.tables
  spared : ∀ other, other ≠ id → later.spawner? other = world.spawner? other
  notes : world.NotesGenerations → later.NotesGenerations

namespace SpawnerId.Tends

variable {id : SpawnerId} {world middle later : World} {fleet between last : Fleet}

/-- A world that is in step tends to itself. -/
theorem refl (inSync : world.InSync id fleet) : id.Tends world fleet world fleet where
  inSync := inSync
  registered := rfl
  kept := rfl
  spared _ _ := rfl
  notes := fun notes => notes

/-- What is seen to in two steps is seen to. -/
theorem trans (first : id.Tends world fleet middle between)
    (second : id.Tends middle between later last) : id.Tends world fleet later last where
  inSync := second.inSync
  registered := second.registered.trans first.registered
  kept := second.kept.trans first.kept
  spared other apart := (second.spared other apart).trans (first.spared other apart)
  notes := fun notes => second.notes (first.notes notes)

end SpawnerId.Tends

namespace Environment

/-- A number of workers that a text gives is not zero. -/
theorem countIn_pos (name value : String) (count : Nat) (found : countIn name value = .ok count) :
    0 < count := by
  unfold countIn at found
  split at found
  case h_1 => cases found
  case h_2 => cases found
  case h_3 size positive _ =>
    obtain rfl := Except.ok.inj found
    exact Nat.pos_of_ne_zero positive

/-- A number of workers that is found in the surroundings is not zero. -/
theorem countFrom_pos (lookup : String → Id (Option String)) (names : List String) (count : Nat)
    (found : (countFrom lookup names).run = .ok (some count)) : 0 < count := by
  induction names with
  | nil => cases found
  | cons name rest inductionHypothesis =>
    rw [countFrom] at found
    have stands : (match lookup name with
        | some value => do return some (← ExceptT.mk (pure (countIn name value)))
        | none => countFrom lookup rest : ExceptT Failure Id (Option Nat)).run =
          .ok (some count) := found
    clear found
    cases looked : lookup name with
    | none =>
      rw [looked] at stands
      exact inductionHypothesis stands
    | some value =>
      rw [looked] at stands
      cases counted : countIn name value with
      | error failure =>
        simp only [counted] at stands
        cases stands
      | ok size =>
        simp only [counted] at stands
        obtain rfl := Option.some.inj (Except.ok.inj stands)
        exact countIn_pos name value _ counted

/-- A group has at least one worker. -/
theorem workerCount_pos (asked : Option Nat) (lookup : String → Id (Option String))
    (cores count : Nat) (found : (workerCount asked lookup cores).run = .ok count) : 0 < count := by
  cases asked with
  | some asked =>
    cases asked with
    | zero => cases found
    | succ others =>
      obtain rfl := Except.ok.inj found
      exact Nat.succ_pos others
  | none =>
    have stands : (countFrom lookup countVariables >>= fun named =>
        pure (named.getD (max cores 1))).run = .ok count := found
    rw [ExceptT.run_bind] at stands
    cases counted : (countFrom lookup countVariables).run with
    | error failure =>
      rw [counted] at stands
      cases stands
    | ok named =>
      rw [counted] at stands
      obtain rfl := Except.ok.inj stands
      cases named with
      | none => exact Nat.lt_of_lt_of_le Nat.one_pos (Nat.le_max_right cores 1)
      | some size => exact countFrom_pos lookup countVariables size counted

end Environment

/-- With workers that act at once, acting comes to this value, this world and this fleet. -/
def Acts {α : Type} (acting : Acting α) (world : World) (fleet : Fleet) (value : α) (later : World)
    (last : Fleet) : Prop :=
  (acting.run world).run Fleet.outside fleet = some ((value, later), last)

namespace Acts

variable {α β : Type} {world middle later : World} {fleet between last : Fleet}

/-- To give a value asks for nothing. -/
theorem pure (value : α) (world : World) (fleet : Fleet) :
    Acts (Pure.pure value) world fleet value world fleet := rfl

/-- Two actions that run one after the other run as one. -/
theorem bind {acting : Acting α} {continuation : α → Acting β} {value : α} {result : β}
    (first : Acts acting world fleet value middle between)
    (second : Acts (continuation value) middle between result later last) :
    Acts (acting >>= continuation) world fleet result later last := by
  have whole := Dialogue.run_bind Fleet.outside (acting.run world)
    (fun reached => continuation reached.1 reached.2) fleet
  rw [first] at whole
  exact whole.trans second

/-- Composed acting is done part by part. -/
theorem of_bind {acting : Acting α} {continuation : α → Acting β} {result : β}
    (acts : Acts (acting >>= continuation) world fleet result later last) :
    ∃ value middle between, Acts acting world fleet value middle between ∧
      Acts (continuation value) middle between result later last := by
  have whole := Dialogue.run_bind Fleet.outside (acting.run world)
    (fun reached => continuation reached.1 reached.2) fleet
  obtain ⟨⟨⟨value, middle⟩, between⟩, begun, ended⟩ :=
    Option.bind_eq_some_iff.mp (whole.symm.trans acts)
  exact ⟨value, middle, between, begun, ended⟩

/-- Composed acting that goes on where its first part went well. -/
theorem bindOk {first : Coordinating α} {continuation : α → Coordinating β} {value : α}
    {answer : Except Stop β} (begun : Acts first.run world fleet (.ok value) middle between)
    (second : Acts (continuation value).run middle between answer later last) :
    Acts (first >>= continuation).run world fleet answer later last :=
  bind begun second

/-- Composed acting that stops at a failure. -/
theorem bindError {first : Coordinating α} {continuation : α → Coordinating β} {stop : Stop}
    (begun : Acts first.run world fleet (.error stop) later last) :
    Acts (first >>= continuation).run world fleet (.error stop) later last :=
  bind begun (pure _ later last)

/-- What acts can be used where a failure could stop it. -/
theorem lift {acting : Acting α} {value : α} (acts : Acts acting world fleet value later last) :
    Acts (liftM acting : Coordinating α).run world fleet (.ok value) later last := by
  have whole := Dialogue.run_bind Fleet.outside (acting.run world)
    (fun reached => .done ((.ok reached.1 : Except Stop α), reached.2)) fleet
  rw [acts] at whole
  exact whole

/-- The same with the world written in another way. -/
theorem landing {acting : Acting α} {value : α} (acts : Acts acting world fleet value later last)
    (same : later = middle) : Acts acting world fleet value middle last := same ▸ acts

/-- An action that cannot fail runs on its own as it runs among those that can. -/
theorem of_lift {acting : Acting α} {value : α}
    (acts : Acts (liftM acting : Coordinating α).run world fleet (.ok value) later last) :
    Acts acting world fleet value later last := by
  have whole := Dialogue.run_bind Fleet.outside (acting.run world)
    (fun reached => .done ((.ok reached.1 : Except Stop α), reached.2)) fleet
  obtain ⟨⟨⟨found, after⟩, left⟩, ended, same⟩ :=
    Option.bind_eq_some_iff.mp (whole.symm.trans acts)
  obtain ⟨both, rfl⟩ := Prod.mk.inj (Option.some.inj same)
  obtain ⟨value, rfl⟩ := Prod.mk.inj both
  obtain rfl := Except.ok.inj value
  exact ended

end Acts

/-- Makes the workers forget a result that is to be freed, if it belongs to this group. -/
def Group.freeOwn (entry : Nat × ResultId) : StateT Group Dialogue Unit := do
  if entry.1 = (← get).generation then
    let _ ← (Group.deleteResult entry.2).run

/-- Acting comes to one end only. -/
theorem Acts.unique {α : Type} {acting : Acting α} {world later after : World}
    {fleet last left : Fleet} {value result : α} (acts : Acts acting world fleet value later last)
    (actsToo : Acts acting world fleet result after left) :
    value = result ∧ later = after ∧ last = left := by
  obtain ⟨same, rfl⟩ := Prod.mk.inj (Option.some.inj (acts.symm.trans actsToo))
  obtain ⟨rfl, rfl⟩ := Prod.mk.inj same
  exact ⟨rfl, rfl, rfl⟩

/-- The workers of a group that was started wait for a command and store nothing. -/
theorem Fleet.atRest_launch (fleet : Fleet) (request : LaunchRequest) (generation : Nat) :
    (fleet.launch request).AtRest
      { link := ⟨fleet.sizes.length⟩, size := request.workers, generation } fun _ => [] := by
  constructor
  · simp [Fleet.size, Fleet.launch]
  · intro rank inside
    simp [Fleet.launch, Fleet.worker]

/-- Handles were made for so many results, each with one share. -/
def World.handing (world : World) (count : Nat) : World :=
  { world with shares := world.shares ++ List.replicate count 1 }

/-- To hand out no handles changes nothing. -/
theorem World.handing_nothing (world : World) : world.handing 0 = world := by
  rw [handing, List.replicate_zero, List.append_nil]

/-- Handles may be handed out in two goes. -/
theorem World.handing_add (world : World) (first second : Nat) :
    world.handing (first + second) = (world.handing first).handing second := by
  simp only [handing, List.append_assoc, List.replicate_append_replicate]

/-- For each handle that is handed out shares are counted. -/
theorem World.shares_handing (world : World) (count : Nat) :
    (world.handing count).shares.length = world.shares.length + count := by
  rw [handing, List.length_append, List.length_replicate]

/-- The handles of results, with keys from `key` on. -/
def Handle.numbered (owner : SpawnerId) (generation key : Nat) (results : List Partitioned) :
    List Handle :=
  (results.zipIdx key).map fun entry => { key := entry.2, id := entry.1.id, generation, owner }

/-- The handles of the second results are numbered behind those of the first. -/
theorem Handle.numbered_append (owner : SpawnerId) (generation key : Nat)
    (first second : List Partitioned) :
    numbered owner generation key (first ++ second) =
      numbered owner generation key first ++
        numbered owner generation (key + first.length) second := by
  rw [numbered, numbered, numbered, List.zipIdx_append, List.map_append]

/-- The handles of all frames of an answer, in order. -/
def Answer.handles (answer : Answer) : List Handle := answer.frames.filterMap Frame.handle?

namespace SpawnerId

variable (id : SpawnerId) {world : World} {fleet : Fleet}

/-- Talk with the live group, which may be another one afterwards. -/
theorem acts_talk_to {α : Type} (talk : StateT Group Dialogue α) (group later : Group) (value : α)
    (last : Fleet) (live : world.group? id = some group)
    (talked : (talk.run group).run Fleet.outside fleet = some ((value, later), last)) :
    Acts (id.talk talk) world fleet (some value) (world.noted id later) last := by
  have whole := Dialogue.run_bind Fleet.outside (talk.run group)
    (fun reached => .done (some reached.1, world.noted id reached.2)) fleet
  rw [talked] at whole
  unfold Acts
  rw [run_talk id talk world group live]
  exact whole

/-- Talk with the live group that leaves it as it is changes nothing at the coordinator. -/
theorem acts_talk {α : Type} (talk : StateT Group Dialogue α) (group : Group) (value : α)
    (last : Fleet) (live : world.group? id = some group)
    (tells : Tells talk group fleet value last) :
    Acts (id.talk talk) world fleet (some value) world last :=
  (acts_talk_to id talk group group value last live tells).landing (world.noted_self id group live)

/-- Results are freed at the workers, and the group is at rest afterwards. -/
theorem tells_frees (group : Group) (sized : fleet.size group.link = group.size)
    (usable : group.isUnusable = false) (pending : List (Nat × ResultId))
    (stores : Nat → ResultStore) :
    ∃ later, Tells (pending.forM Group.freeOwn) group (fleet.rest group stores) ()
        (fleet.rest group later) ∧
      ∀ rank result, (later rank).find? result =
        if (group.generation, result) ∈ pending then none else (stores rank).find? result := by
  induction pending generalizing stores with
  | nil => exact ⟨stores, Tells.pure () group _, fun _ _ => (if_neg List.not_mem_nil).symm⟩
  | cons entry rest inductionHypothesis =>
    by_cases own : entry.1 = group.generation
    · obtain ⟨later, freed, found⟩ := inductionHypothesis fun rank => (stores rank).erase entry.2
      have deleted := Tells.ofSays (Group.says_deleteResult sized entry.2 stores usable)
      have first : Tells (Group.freeOwn entry) group (fleet.rest group stores) ()
          (fleet.rest group fun rank => (stores rank).erase entry.2) := by
        show Tells (if entry.1 = group.generation then _ else _) _ _ _ _
        rw [if_pos own]
        exact Tells.bind deleted (Tells.pure () group _)
      refine ⟨later, Tells.bind first freed, fun rank result => ?_⟩
      rw [found, ResultStore.find?_erase]
      by_cases here : result = entry.2
      · have listed : (group.generation, result) ∈ entry :: rest := by
          rw [here, ← own]
          exact List.mem_cons_self
        rw [if_pos here, if_pos listed, ite_self]
      · have elsewhere : (group.generation, result) ≠ entry := fun same => here (same ▸ rfl)
        simp only [here, if_false, List.mem_cons, elsewhere, false_or]
    · obtain ⟨later, freed, found⟩ := inductionHypothesis stores
      have first : Tells (Group.freeOwn entry) group (fleet.rest group stores) ()
          (fleet.rest group stores) := by
        show Tells (if entry.1 = group.generation then _ else _) _ _ _ _
        rw [if_neg own]
        exact Tells.pure () group _
      refine ⟨later, Tells.bind first freed, fun rank result => ?_⟩
      have elsewhere : (group.generation, result) ≠ entry := fun same => own (same ▸ rfl)
      simp only [found, List.mem_cons, elsewhere, false_or]

/-- Freeing results takes note that none is left and then tells the live group, if the spawner is
there. -/
theorem flush_cases (world : World) :
    id.flush.run world = (match world.spawner? id with
      | none => Pure.pure ()
      | some spawner => do
        id.change fun spawner => { spawner with pending := [] }
        let _ ← id.talk (spawner.pending.forM Group.freeOwn) : Acting Unit).run world := rfl

/-- Where there is no group to talk with, freeing results forgets that they are to be freed. -/
theorem acts_flush_idle (spawner : Spawner) (found : world.spawner? id = some spawner)
    (idle : world.group? id = none) : Acts id.flush world fleet () (world.emptied id) fleet := by
  have changed : Acts (id.change fun spawner => { spawner with pending := [] }) world fleet ()
    (world.emptied id) fleet := rfl
  have talked : Acts (id.talk (spawner.pending.forM Group.freeOwn)) (world.emptied id) fleet none
      (world.emptied id) fleet := by
    unfold Acts
    rw [run_talk_none id _ _ ((world.group?_emptied id).trans idle)]
    rfl
  unfold Acts
  rw [flush_cases, found]
  exact Acts.bind changed (Acts.bind talked (Acts.pure () _ fleet))

/-- Freeing results makes the workers of the live group forget those of its generation. -/
theorem acts_flush (spawner : Spawner) (found : world.spawner? id = some spawner) (group : Group)
    (live : world.group? id = some group) (usable : group.isUnusable = false)
    (stores : Nat → ResultStore) (rests : fleet.AtRest group stores) :
    ∃ later, Acts id.flush world fleet () (world.emptied id) (fleet.rest group later) ∧
      ∀ rank result, (later rank).find? result =
        if (group.generation, result) ∈ spawner.pending then none
        else (stores rank).find? result := by
  have changed : Acts (id.change fun spawner => { spawner with pending := [] }) world fleet ()
    (world.emptied id) fleet := rfl
  have stays := (world.group?_emptied id).trans live
  obtain ⟨later, frees, freed⟩ := tells_frees group rests.sized usable spawner.pending stores
  rw [rests.rest_eq] at frees
  have talked := acts_talk id _ group () _ stays frees
  refine ⟨later, ?_, freed⟩
  unfold Acts
  rw [flush_cases, found]
  exact Acts.bind changed (Acts.bind talked (Acts.pure () _ _))

/-- Freeing results keeps a spawner in sync. -/
theorem flush_inSync (inSync : world.InSync id fleet) :
    ∃ later last, Acts id.flush world fleet () later last ∧ id.Tends world fleet later last ∧
      later.group? id = world.group? id := by
  have tended (last : Fleet) (registered : last.registry = fleet.registry)
      (afterwards : (world.emptied id).InSync id last) :
      id.Tends world fleet (world.emptied id) last := {
    inSync := afterwards
    registered
    kept := rfl
    spared := fun other => world.spawner?_change_of_ne id other _
    notes := fun notes =>
      notes.change_of_state id _ (fun _ => rfl) (fun _ => rfl) fun _ => rfl }
  cases found : world.spawner? id with
  | none =>
    refine ⟨world, fleet, ?_, .refl inSync, rfl⟩
    unfold Acts
    rw [flush_cases, found]
    rfl
  | some spawner =>
    have same := world.group?_emptied id
    cases live : world.group? id with
    | none =>
      exact ⟨_, fleet, acts_flush_idle id spawner found live,
        tended fleet rfl (inSync.of_group same), same.trans live⟩
    | some group =>
      obtain ⟨manned, usable, stores, rests⟩ := inSync group live
      obtain ⟨later, flushed, -⟩ := acts_flush id spawner found group live usable stores rests
      refine ⟨_, _, flushed, tended _ rfl fun other there => ?_, same.trans live⟩
      obtain rfl := Option.some.inj (live.symm.trans (same.symm.trans there))
      exact ⟨manned, usable, later, Fleet.atRest_rest rests.sized⟩

/-- A spawner has used up a generation. -/
theorem tends_counted (spawner : Spawner) (idle : world.group? id = none) :
    id.Tends world fleet (id.counted spawner world) fleet where
  inSync := World.inSync_of_idle ((group?_counted id spawner world).trans idle)
  registered := rfl
  kept := rfl
  spared other := world.spawner?_change_of_ne id other _
  notes notes := notes.change_of_state id _ (fun _ => rfl) (fun _ => rfl) fun _ => rfl

/-- A spawner has got a group. -/
theorem tends_manned (spawner : Spawner) (found : world.spawner? id = some spawner) (group : Group)
    (manned : 0 < group.size) (usable : group.isUnusable = false) (stores : Nat → ResultStore)
    (last : Fleet) (rests : last.AtRest group stores) (registered : last.registry = fleet.registry) :
    id.Tends world fleet (id.manned spawner group world) last where
  inSync := by
    intro other live
    obtain rfl := Option.some.inj ((group?_manned id spawner group world found).symm.trans live)
    exact ⟨manned, usable, stores, rests⟩
  registered := registered
  kept := rfl
  spared other apart :=
    (World.spawner?_change_of_ne _ id other _ apart).trans
      (World.spawner?_change_of_ne _ id other _ apart)
  notes notes := by
    apply World.NotesGenerations.change
    · exact notes.change_of_state id _ (fun _ => rfl) (fun _ => rfl) fun _ => rfl
    · exact fun _ => rfl
    · exact fun _ _ => rfl

/-- A group that was started is in sync. -/
theorem launch_inSync (spawner : Spawner) (found : world.spawner? id = some spawner)
    (idle : world.group? id = none) :
    ∃ answer later last, Acts (id.launch spawner).run world fleet answer later last ∧
      id.Tends world fleet later last ∧
      ((∃ stop, answer = .error stop) → later.group? id = none) := by
  unfold Acts
  rw [run_launch]
  cases count : workers? spawner world with
  | error failure =>
    exact ⟨_, _, fleet, rfl, tends_counted id spawner idle,
      fun _ => (group?_counted id spawner world).trans idle⟩
  | ok workers =>
    let group : Group := {
      link := ⟨fleet.sizes.length⟩
      size := workers
      generation := spawner.lastGeneration + 1 }
    have rests : (fleet.launch (request spawner workers world)).AtRest group fun _ => [] :=
      fleet.atRest_launch (request spawner workers world) (spawner.lastGeneration + 1)
    refine ⟨_, _, fleet.launch (request spawner workers world), rfl, ?_, ?_⟩
    · exact tends_manned id spawner found group (Environment.workerCount_pos _ _ _ _ count) rfl _ _
        rests rfl
    · rintro ⟨stop, stopped⟩
      cases stopped

/-- Making sure of a group keeps a spawner in sync. -/
theorem ensureGroup_inSync (inSync : world.InSync id fleet) :
    ∃ answer later last, Acts id.ensureGroup.run world fleet answer later last ∧
      id.Tends world fleet later last ∧
      ((∃ stop, answer = .error stop) → later.group? id = none) := by
  cases found : world.spawner? id with
  | none =>
    refine ⟨.error (.failed gone), world, fleet, ?_, .refl inSync, fun _ => ?_⟩
    · unfold Acts
      rw [run_ensureGroup_gone id world found]
      rfl
    · rw [World.group?_eq, found]
      rfl
  | some spawner =>
    cases live : world.group? id with
    | none =>
      unfold Acts
      rw [run_ensureGroup_launch id world spawner found live]
      exact launch_inSync id spawner found live
    | some group =>
      refine ⟨.ok (), world, fleet, ?_, .refl inSync, ?_⟩
      · unfold Acts
        rw [run_ensureGroup_live id world group live]
        rfl
      · rintro ⟨stop, stopped⟩
        cases stopped

/-- Making the group ready keeps a spawner in sync. -/
theorem prepare_inSync (inSync : world.InSync id fleet) :
    ∃ answer later last, Acts id.prepare.run world fleet answer later last ∧
      id.Tends world fleet later last ∧
      ((∃ stop, answer = .error stop) → later.group? id = none) := by
  obtain ⟨answer, middle, between, ensured, tended, stopped⟩ := ensureGroup_inSync id inSync
  cases answer with
  | error stop =>
    exact ⟨_, middle, between, Acts.bindError ensured, tended, fun _ => stopped ⟨stop, rfl⟩⟩
  | ok _ =>
    obtain ⟨later, last, flushed, again, _⟩ := flush_inSync id tended.inSync
    refine ⟨.ok (), later, last, Acts.bindOk ensured (Acts.lift flushed), tended.trans again, ?_⟩
    rintro ⟨stop, found⟩
    cases found

mutual

/-- Handles for results are made without asking for anything: one for each result of the reply, in
order. -/
theorem acts_ofReply (owner : SpawnerId) (generation : Nat) (reply : Reply) (world : World)
    (fleet : Fleet) :
    ∃ answer, Acts (Answer.ofReply owner generation reply) world fleet answer
        (world.handing reply.results.length) fleet ∧
      answer.handles = Handle.numbered owner generation world.shares.length reply.results := by
  cases reply with
  | value found =>
    exact ⟨_, (Acts.pure _ world fleet).landing world.handing_nothing.symm, rfl⟩
  | partitioned found =>
    have made : Acts (Handle.create owner generation found.id) world fleet _ (world.handing 1)
      fleet := rfl
    exact ⟨_, Acts.bind made (Acts.pure _ _ fleet), rfl⟩
  | tuple items =>
    obtain ⟨answers, acts, handles⟩ := acts_ofReplies owner generation items world fleet
    exact ⟨_, Acts.bind acts (Acts.pure _ _ fleet), handles⟩
  | map entries =>
    obtain ⟨answers, acts, handles⟩ := acts_ofEntries owner generation entries world fleet
    exact ⟨_, Acts.bind acts (Acts.pure _ _ fleet), handles⟩

/-- Each result among the items of a reply is given a handle, in order. -/
theorem acts_ofReplies (owner : SpawnerId) (generation : Nat) (items : List Reply) (world : World)
    (fleet : Fleet) :
    ∃ answers, Acts (Answer.ofReplies owner generation items) world fleet answers
        (world.handing (Reply.resultsOf items).length) fleet ∧
      (Answer.framesOf answers).filterMap Frame.handle? =
        Handle.numbered owner generation world.shares.length (Reply.resultsOf items) := by
  cases items with
  | nil => exact ⟨[], (Acts.pure [] world fleet).landing world.handing_nothing.symm, rfl⟩
  | cons item rest =>
    obtain ⟨answer, first, handles⟩ := acts_ofReply owner generation item world fleet
    obtain ⟨answers, second, handlesToo⟩ := acts_ofReplies owner generation rest _ fleet
    refine ⟨answer :: answers, ?_, ?_⟩
    · rw [Reply.resultsOf, List.length_append, World.handing_add]
      exact Acts.bind first (Acts.bind second (Acts.pure _ _ fleet))
    · rw [Answer.framesOf, List.filterMap_append, handlesToo, Reply.resultsOf, World.shares_handing,
        Handle.numbered_append]
      exact congrArg (· ++ _) handles

/-- Each result among the entries of a reply is given a handle, in order. -/
theorem acts_ofEntries (owner : SpawnerId) (generation : Nat) (entries : List (String × Reply))
    (world : World) (fleet : Fleet) :
    ∃ answers, Acts (Answer.ofEntries owner generation entries) world fleet answers
        (world.handing (Reply.resultsOfEntries entries).length) fleet ∧
      (Answer.framesOfEntries answers).filterMap Frame.handle? =
        Handle.numbered owner generation world.shares.length (Reply.resultsOfEntries entries) := by
  cases entries with
  | nil => exact ⟨[], (Acts.pure [] world fleet).landing world.handing_nothing.symm, rfl⟩
  | cons entry rest =>
    obtain ⟨name, entry⟩ := entry
    obtain ⟨answer, first, handles⟩ := acts_ofReply owner generation entry world fleet
    obtain ⟨answers, second, handlesToo⟩ := acts_ofEntries owner generation rest _ fleet
    refine ⟨(name, answer) :: answers, ?_, ?_⟩
    · rw [Reply.resultsOfEntries, List.length_append, World.handing_add]
      exact Acts.bind first (Acts.bind second (Acts.pure _ _ fleet))
    · rw [Answer.framesOfEntries, List.filterMap_append, handlesToo, Reply.resultsOfEntries,
        World.shares_handing, Handle.numbered_append]
      exact congrArg (· ++ _) handles

end

/-- To note orphans asks for nothing and leaves the live group as it is. -/
theorem acts_notePending (generation : Nat) (orphans : List Partitioned) (world : World)
    (fleet : Fleet) :
    ∃ later, Acts (orphans.forM fun orphan => id.notePending generation orphan.id) world fleet ()
      later fleet ∧ later.group? id = world.group? id := by
  induction orphans generalizing world with
  | nil => exact ⟨world, Acts.pure () world fleet, rfl⟩
  | cons orphan rest inductionHypothesis =>
    let update (spawner : Spawner) : Spawner :=
      if spawner.liveGeneration = some generation then
        { spawner with pending := spawner.pending ++ [(generation, orphan.id)] }
      else spawner
    have first : Acts (id.notePending generation orphan.id) world fleet () (world.change id update)
      fleet := rfl
    have kept : (world.change id update).group? id = world.group? id := by
      apply world.group?_change_of_state id update
      · intro spawner
        simp only [update]
        split <;> rfl
      · intro spawner
        simp only [update]
        split <;> rfl
    obtain ⟨later, second, same⟩ := inductionHypothesis (world.change id update)
    exact ⟨later, Acts.bind first second, same.trans kept⟩

/-- What is made of the end of the talk with a group that can be used. -/
theorem acts_conclude (generation : Nat) (called : CallEnd) (world : World) (fleet : Fleet)
    (usable : ∀ group, world.group? id = some group → group.isUnusable = false) :
    ∃ answer later, Acts (id.conclude generation called) world fleet (called.arguments, answer) later
      fleet ∧ later.group? id = world.group? id ∧
      ((∃ given, answer = .ok given) → ∃ reply, called.outcome = .ok reply) := by
  have answered : ∃ answer later, Acts (id.answer generation called) world fleet answer later
      fleet ∧ later.group? id = world.group? id ∧
      ((∃ given, answer = .ok given) → ∃ reply, called.outcome = .ok reply) := by
    unfold SpawnerId.answer
    cases called.outcome with
    | ok reply =>
      obtain ⟨answer, acts, -⟩ := acts_ofReply id generation reply world fleet
      exact ⟨_, _, Acts.bind acts (Acts.pure _ _ fleet), rfl, fun _ => ⟨reply, rfl⟩⟩
    | error abandoned =>
      obtain ⟨later, acts, same⟩ :=
        acts_notePending id generation abandoned.orphans world fleet
      refine ⟨_, later, Acts.bind acts (Acts.pure _ later fleet), same, ?_⟩
      rintro ⟨given, wrong⟩
      cases wrong
  obtain ⟨answer, later, acts, same, replied⟩ := answered
  have retired : Acts id.retireIfUnusable later fleet () later fleet := by
    unfold Acts
    rw [run_retire_usable id later fun group live => usable group (same ▸ live)]
    rfl
  exact ⟨answer, later, Acts.bind acts (Acts.bind retired (Acts.pure _ later fleet)), same, replied⟩

end SpawnerId

end Rankwise

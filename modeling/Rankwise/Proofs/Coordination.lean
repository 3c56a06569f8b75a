import Rankwise.Group.Spawner

/-!
# What the coordinator does with its spawners

The parts of a call, as equations: how a spawner talks with its live group, starts one if there is
none and retires one that cannot be used any more, and how the parts of a call follow each other.
What is to be shown about whole calls rests on these equations and does not unfold the calls again.
-/

namespace Rankwise

/-- The live group of a spawner, if it has one. -/
def Spawner.live? (spawner : Spawner) : Option Group :=
  match spawner.state with
  | .live group => some group
  | _ => none

namespace World

variable (world : World) (id : SpawnerId)

/-- The live group is that of the spawner, if the spawner is there. -/
theorem group?_eq : world.group? id = (world.spawner? id).bind Spawner.live? := by
  unfold group?
  cases world.spawner? id with
  | none => rfl
  | some spawner =>
    obtain ⟨options, state, live, last, pending, owners⟩ := spawner
    cases state <;> rfl

/-- A change that leaves the shares alone keeps a spawner in existence. -/
theorem spawner?_change (update : Spawner → Spawner)
    (shared : ∀ spawner, (update spawner).owners = spawner.owners) :
    (world.change id update).spawner? id = (world.spawner? id).map update := by
  simp only [spawner?, change, List.getElem?_modify_eq]
  cases world.spawners[id.index]? with
  | none => rfl
  | some spawner =>
    have same : (update spawner).exists? = spawner.exists? := by
      simp only [Spawner.exists?, shared]
    cases present : spawner.exists? <;> simp [Option.filter, same, present]

/-- A change to the spawner that keeps its shares decides on its live group alone. -/
theorem group?_change (update : Spawner → Spawner)
    (shared : ∀ spawner, (update spawner).owners = spawner.owners) :
    (world.change id update).group? id =
      (world.spawner? id).bind fun spawner => (update spawner).live? := by
  rw [group?_eq, spawner?_change world id update shared]
  cases world.spawner? id <;> rfl

/-- A change that leaves the state alone keeps the live group. -/
theorem group?_change_of_state (update : Spawner → Spawner)
    (shared : ∀ spawner, (update spawner).owners = spawner.owners)
    (kept : ∀ spawner, (update spawner).state = spawner.state) :
    (world.change id update).group? id = world.group? id := by
  rw [group?_change world id update shared, group?_eq]
  cases world.spawner? id with
  | none => rfl
  | some spawner => simp only [Option.bind_some, Spawner.live?, kept]

/-- One call more was counted. -/
def counted : World := { world with calls := world.calls + 1 }

/-- The spawner has noted what its live group is like now. -/
def noted (group : Group) : World :=
  world.change id fun spawner => { spawner with state := .live group }

/-- The live group after it was noted. -/
theorem group?_noted (group later : Group) (live : world.group? id = some group) :
    (world.noted id later).group? id = some later := by
  rw [noted, group?_change world id (fun spawner => { spawner with state := .live later })
    fun _ => rfl]
  rw [group?_eq] at live
  obtain ⟨spawner, found, -⟩ := Option.bind_eq_some_iff.mp live
  rw [found]
  rfl

end World

namespace Coordinating

variable {α β : Type}

/-- The second of two actions starts from the world that the first has left, unless the first has
failed. -/
theorem run_bind (first : Coordinating α) (continuation : α → Coordinating β)
    (world : World) :
    (first >>= continuation).run.run world =
      (first.run.run world).bind fun
        | (.ok value, later) => (continuation value).run.run later
        | (.error stop, later) => .done (.error stop, later) := by
  refine congrArg (Dialogue.bind (first.run.run world)) (funext fun (answer, later) => ?_)
  cases answer with
  | ok value => rfl
  | error stop => rfl

/-- An action that cannot fail goes on with its value. -/
theorem run_lift (acting : Acting α) (continuation : α → Coordinating β)
    (world : World) :
    (liftM acting >>= continuation).run.run world =
      (acting.run world).bind fun (value, later) => (continuation value).run.run later :=
  Dialogue.bind_assoc (acting.run world) _ _

end Coordinating

namespace SpawnerId

variable (id : SpawnerId)

/-- To talk with the live group is to talk with it, if there is one, and to note how it is then. -/
theorem talk_cases {α : Type} (talk : StateT Group Dialogue α) (world : World) :
    (id.talk talk).run world = (match world.group? id with
      | none => Pure.pure none
      | some group => do
        let (answer, group) ← talk.run group
        id.change fun spawner => { spawner with state := .live group }
        return some answer : Acting (Option α)).run world := rfl

/-- Where no group is live, nobody is talked with. -/
theorem run_talk_none {α : Type} (talk : StateT Group Dialogue α) (world : World)
    (live : world.group? id = none) : (id.talk talk).run world = .done (none, world) := by
  rw [talk_cases, live]
  rfl

/-- Talk with the live group is talk with that group, which is noted afterwards. -/
theorem run_talk {α : Type} (talk : StateT Group Dialogue α) (world : World) (group : Group)
    (live : world.group? id = some group) :
    (id.talk talk).run world = (talk.run group).bind fun (answer, later) =>
      .done (some answer, world.noted id later) := by
  rw [talk_cases, live]
  exact Dialogue.bind_assoc (talk.run group) _ _

/-- A group is retired if it is live and can no longer be used. -/
theorem retire_cases (world : World) :
    id.retireIfUnusable.run world = (match world.group? id with
      | none => Pure.pure ()
      | some group => do
        if group.isUnusable then
          let _ ← id.talk Group.finish.run
          id.change fun spawner => { spawner with state := .destroyed, liveGeneration := none } :
      Acting Unit).run world := rfl

/-- A group that cannot be used any more is ended, whatever comes of it. -/
theorem run_retire_unusable (world : World) (group : Group) (live : world.group? id = some group)
    (unusable : group.isUnusable = true) :
    id.retireIfUnusable.run world =
      ((id.talk Group.finish.run).run world).bind fun (_, world) =>
        .done ((), world.change id fun spawner =>
          { spawner with state := .destroyed, liveGeneration := none }) := by
  rw [retire_cases, live]
  dsimp only
  rw [if_pos unusable]
  rfl

/-- A group that can be used is not retired. -/
theorem run_retire_usable (world : World)
    (usable : ∀ group, world.group? id = some group → group.isUnusable = false) :
    id.retireIfUnusable.run world = .done ((), world) := by
  rw [retire_cases]
  cases live : world.group? id with
  | none => rfl
  | some group =>
    dsimp only
    rw [if_neg (Bool.eq_false_iff.mp (usable group live))]
    rfl

/-- Where a group was ended, none is live. -/
theorem group?_destroyed (world : World) :
    (world.change id fun spawner =>
      { spawner with state := .destroyed, liveGeneration := none }).group? id = none := by
  rw [World.group?_change world id
    (fun spawner => { spawner with state := .destroyed, liveGeneration := none }) fun _ => rfl]
  cases world.spawner? id <;> rfl

/-- The number of workers that a group of the spawner is to have. -/
def workers? (spawner : Spawner) (world : World) : Except Failure Nat :=
  (Environment.workerCount spawner.options.workers (m := Id) world.lookup world.cores).run

/-- The spawner once the generation of the next group was used up. -/
def counted (spawner : Spawner) (world : World) : World :=
  world.change id fun found => { found with lastGeneration := spawner.lastGeneration + 1 }

/-- The spawner once a group was started. -/
def manned (spawner : Spawner) (group : Group) (world : World) : World :=
  (id.counted spawner world).change id fun found =>
    { found with state := .live group, liveGeneration := some group.generation }

/-- To count up generations leaves the live group as it is. -/
theorem group?_counted (spawner : Spawner) (world : World) :
    (id.counted spawner world).group? id = world.group? id :=
  world.group?_change_of_state id
    (fun found => { found with lastGeneration := spawner.lastGeneration + 1 }) (fun _ => rfl)
    fun _ => rfl

/-- A group that was started is live. -/
theorem group?_manned (spawner : Spawner) (group : Group) (world : World)
    (found : world.spawner? id = some spawner) :
    (id.manned spawner group world).group? id = some group := by
  have counted : (id.counted spawner world).spawner? id =
      some { spawner with lastGeneration := spawner.lastGeneration + 1 } := by
    rw [SpawnerId.counted, world.spawner?_change id
      (fun found => { found with lastGeneration := spawner.lastGeneration + 1 }) fun _ => rfl, found]
    rfl
  rw [manned, World.group?_change _ id (fun found => { found with
    state := .live group, liveGeneration := some group.generation }) fun _ => rfl, counted]
  rfl

/-- What is asked for to start a group. -/
def request (spawner : Spawner) (workers : Nat) (world : World) : LaunchRequest where
  workers
  environment := Environment.forwarded world.environment spawner.options.propagate
  verbosity := spawner.options.verbosity

/-- A launch counts up the generation first; then it can fail for want of a number of workers, or
outside, or there is a group. -/
theorem run_launch (spawner : Spawner) (world : World) :
    (id.launch spawner).run.run world = match workers? spawner world with
      | .error failure => .done (.error (.failed failure), id.counted spawner world)
      | .ok workers => .launch id (request spawner workers world) fun
        | .error failure => .done (.error (.failed failure), id.counted spawner world)
        | .ok link => .done (.ok (), id.manned spawner
            { link, size := workers, generation := spawner.lastGeneration + 1 } world) := by
  have unfolded : (id.launch spawner).run.run world = ((do
      let group ← (do
        let workers ← Coordinating.ofExcept (workers? spawner world)
        let answer ← (StateT.lift (.launch id (request spawner workers world) .done) :
          Acting (Except Failure Link))
        let link ← Coordinating.ofExcept answer
        return { link, size := workers, generation := spawner.lastGeneration + 1 } :
        Coordinating Group)
      id.change fun found => { found with
        state := .live group
        liveGeneration := some (spawner.lastGeneration + 1) } :
      Coordinating Unit).run.run (id.counted spawner world)) := rfl
  rw [unfolded]
  cases workers? spawner world with
  | error failure => rfl
  | ok workers =>
    refine congrArg (Dialogue.launch id (request spawner workers world)) (funext fun answer => ?_)
    cases answer with
    | error failure => rfl
    | ok link => rfl

/-- A group is launched for a spawner that is there and has none. -/
theorem ensureGroup_cases (world : World) :
    id.ensureGroup.run.run world = ((match world.spawner? id with
      | none => Coordinating.fail gone
      | some spawner =>
        match spawner.state with
        | .live _ => return
        | _ => id.launch spawner : Coordinating Unit).run.run world) := rfl

/-- A spawner that is gone launches nothing and says so. -/
theorem run_ensureGroup_gone (world : World) (absent : world.spawner? id = none) :
    id.ensureGroup.run.run world = .done (.error (.failed gone), world) := by
  rw [ensureGroup_cases, absent]
  rfl

/-- Where a group is live, none is launched. -/
theorem run_ensureGroup_live (world : World) (group : Group) (live : world.group? id = some group) :
    id.ensureGroup.run.run world = .done (.ok (), world) := by
  rw [World.group?_eq] at live
  obtain ⟨spawner, found, running⟩ := Option.bind_eq_some_iff.mp live
  rw [ensureGroup_cases, found]
  unfold Spawner.live? at running
  split at running
  case h_1 group state => simp only [state]; rfl
  case h_2 => cases running

/-- Where no group is live, one is launched. -/
theorem run_ensureGroup_launch (world : World) (spawner : Spawner)
    (found : world.spawner? id = some spawner) (idle : world.group? id = none) :
    id.ensureGroup.run.run world = (id.launch spawner).run.run world := by
  rw [World.group?_eq, found, Option.bind_some] at idle
  rw [ensureGroup_cases, found]
  dsimp only
  split
  case h_1 group state => simp [Spawner.live?, state] at idle
  case h_2 => rfl

/-- The part of a call in which the group is made ready. -/
def prepare : Coordinating Unit := do
  id.ensureGroup
  (id.flush : Acting Unit)

/-- What is made of the end of the talk with the group. -/
def answer (generation : Nat) (called : CallEnd) : Acting (Except Failure Answer) :=
  match called.outcome with
  | .ok reply => do return .ok (← Answer.ofReply id generation reply)
  | .error abandoned => do
    abandoned.orphans.forM fun orphan => id.notePending generation orphan.id
    return .error abandoned.failure

/-- The part of a call behind `prepare`. -/
def perform (computation : Computation) (arguments : CallArguments) :
    Coordinating (CallArguments × Except Failure Answer) := do
  let world ← get
  set { world with calls := world.calls + 1 }
  let some group := world.group? id | Coordinating.fail notStarted
  let called ← (id.talk (Group.submit world.isLive world.environment (.ofCounter world.calls)
    computation arguments) : Acting (Option CallEnd))
  let some called := called | Coordinating.fail notStarted
  let answer ← (id.answer group.generation called : Acting (Except Failure Answer))
  (id.retireIfUnusable : Acting Unit)
  return (called.arguments, answer)

/-- A call is prepared and then performed. -/
theorem submit_eq (computation : Computation) (arguments : CallArguments) :
    id.submit computation arguments = (do
      id.prepare
      id.perform computation arguments) :=
  (bind_assoc id.ensureGroup (fun _ => liftM id.flush)
    fun _ => id.perform computation arguments).symm

/-- What the coordinator talks with its live group in a call. -/
def callTalk (computation : Computation) (arguments : CallArguments) (world : World) :
    StateT Group Dialogue CallEnd :=
  Group.submit world.isLive world.environment (.ofCounter world.calls) computation arguments

/-- What follows the talk with the group. -/
def conclude (generation : Nat) (called : CallEnd) :
    Acting (CallArguments × Except Failure Answer) := do
  let answer ← id.answer generation called
  id.retireIfUnusable
  return (called.arguments, answer)

/-- A call is concluded by answering it and then retiring the group if it can no longer be used. -/
theorem run_conclude (generation : Nat) (called : CallEnd) (world : World) :
    (id.conclude generation called).run world =
      ((id.answer generation called).run world).bind fun (answer, later) =>
        (id.retireIfUnusable.run later).bind fun (_, last) =>
          .done ((called.arguments, answer), last) := rfl

/-- A call is performed by counting it, talking with the live group and concluding it. -/
theorem perform_cases (computation : Computation) (arguments : CallArguments) (world : World) :
    (id.perform computation arguments).run.run world =
      ((match world.group? id with
        | some group => do
          let called ← (id.talk (callTalk computation arguments world) : Acting (Option CallEnd))
          let some called := called | Coordinating.fail notStarted
          let answer ← (id.answer group.generation called : Acting (Except Failure Answer))
          (id.retireIfUnusable : Acting Unit)
          return (called.arguments, answer)
        | _ => Coordinating.fail notStarted : Coordinating _).run.run world.counted) := rfl

/-- With a live group, a call is its talk and then its conclusion. -/
theorem run_perform (computation : Computation) (arguments : CallArguments) (world : World)
    (group : Group) (live : world.group? id = some group) :
    (id.perform computation arguments).run.run world =
      ((callTalk computation arguments world).run group).bind fun (called, later) =>
        ((id.conclude group.generation called).run (world.counted.noted id later)).bind
          fun (result, last) => .done (.ok result, last) := by
  rw [perform_cases, live]
  dsimp only
  rw [Coordinating.run_lift, run_talk id _ world.counted group live, Dialogue.bind_assoc]
  refine congrArg (Dialogue.bind _) (funext fun (called, later) => ?_)
  have rest := Coordinating.run_lift (id.answer group.generation called) (fun answer => do
    (id.retireIfUnusable : Acting Unit)
    return (called.arguments, answer)) (world.counted.noted id later)
  refine rest.trans ?_
  rw [run_conclude, Dialogue.bind_assoc]
  refine congrArg (Dialogue.bind _) (funext fun (answer, last) => ?_)
  have retiring := Coordinating.run_lift id.retireIfUnusable (fun _ =>
    (Pure.pure (called.arguments, answer) : Coordinating _)) last
  refine retiring.trans ?_
  dsimp only
  rw [Dialogue.bind_assoc]
  rfl

/-- Without a live group, a call fails and is counted. -/
theorem run_perform_none (computation : Computation) (arguments : CallArguments) (world : World)
    (idle : world.group? id = none) :
    (id.perform computation arguments).run.run world =
      .done (.error (.failed notStarted), world.counted) := by
  rw [perform_cases, idle]
  rfl
end SpawnerId

end Rankwise

import Rankwise.Proofs.Acting
import Rankwise.Proofs.Leftovers

/-!
# Calls that leave a partition on every rank

The simplest distributed output is a single partition on every rank. A call with such an output
gives a frame (`acts_callFrame`), and a call that gives a frame was answered by every rank without a
failure (`answered_of_callFrame`).
-/

namespace Rankwise

namespace SpawnerId

variable (id : SpawnerId)

/-- The frame of the partitions that a call leaves on the ranks. -/
def frameOf (group : Group) (world : World) (partition : Nat → Batch) : Frame :=
  .distributed
    (.ofOutputs (.ofCounter world.calls) group.size (fun rank => [partition rank]) 0) {
      key := world.shares.length
      id := .ofOutput (.ofCounter world.calls) 0
      generation := group.generation
      owner := id }

/-- The coordinator after such a call. -/
def afterCall (group : Group) (world : World) : World :=
  { world.counted.noted id group with shares := world.shares ++ [1] }

/-- What the ranks store after such a call. -/
def storedAfter (world : World) (partition : Nat → Batch) (stores : Nat → ResultStore)
    (rank : Nat) : ResultStore :=
  (stores rank).put (.ofOutput (.ofCounter world.calls) 0) (partition rank)

/-- Makes a call that is to give a frame. -/
def callFrame (computation : Computation) (arguments : CallArguments) : Coordinating Frame := do
  let (_, answer) ← id.submit computation arguments
  (← Coordinating.ofExcept answer).toFrame

variable {world ready : World} {fleet last : Fleet} {group : Group} {stores : Nat → ResultStore}
  {computation : Computation} {arguments : CallArguments} {prepared : PreparedCall}

/-- A call behind `prepare`, given how the talk with the group goes. -/
theorem acts_perform (live : ready.group? id = some group) (called : CallEnd)
    (tells : Tells (callTalk computation arguments ready) group last called fleet)
    (answer : Except Failure Answer) (final : World)
    (answers : Acts (id.answer group.generation called) (ready.counted.noted id group) fleet answer
      final fleet)
    (usable : ∀ group, final.group? id = some group → group.isUnusable = false) :
    Acts (id.perform computation arguments).run ready last
      (.ok (called.arguments, answer)) final fleet := by
  have retired : Acts id.retireIfUnusable final fleet () final fleet := by
    unfold Acts
    rw [run_retire_usable id final usable]
    rfl
  have concluded : Acts (id.conclude group.generation called) (ready.counted.noted id group) fleet
      (called.arguments, answer) final fleet :=
    Acts.bind answers (Acts.bind retired (Acts.pure _ final fleet))
  have whole := Dialogue.run_bind Fleet.outside
    ((id.conclude group.generation called).run (ready.counted.noted id group))
    (fun reached => .done ((.ok reached.1 : Except Stop _), reached.2)) fleet
  rw [concluded] at whole
  unfold Acts
  rw [run_perform id computation arguments ready group live, Dialogue.run_bind, tells]
  exact whole

/-- The live group is the same after a call. -/
theorem group?_afterCall (live : ready.group? id = some group) :
    (id.afterCall group ready).group? id = some group :=
  World.group?_noted ready.counted id group group live

/-- A call whose ranks all answer with one partition. -/
theorem acts_perform_partition (live : ready.group? id = some group) (manned : 0 < group.size)
    (usable : group.isUnusable = false) (rests : last.AtRest group stores)
    (ordered : arguments.IsOrdered)
    (prepares : PreparedCall.prepare ready.isLive computation arguments = .ok prepared)
    (partition : Nat → Batch) (later : Nat → ResultStore)
    (answered : ∀ rank < group.size, Request.outcome? last.registry group.size ready.environment
      computation arguments prepared stores rank =
        some (.ok (.distributed (partition rank)), later rank)) :
    ∃ left, Acts (id.perform computation arguments).run ready last
      (.ok (left, .ok (.frame (id.frameOf group ready partition)))) (id.afterCall group ready)
      (last.rest group (storedAfter ready partition later)) := by
  have going := Request.going_of_answered stores ready.isLive ready.environment computation
    arguments prepared prepares ordered later (fun rank => .ok (.distributed (partition rank)))
    answered
  have conducted := Group.tells_conduct_ok rests.sized manned (.ofCounter ready.calls)
    (fun rank => .distributed (partition rank)) going fun _ _ => rfl
  have told := Group.tells_submit_prepared ready.isLive ready.environment (.ofCounter ready.calls)
    computation arguments usable prepares _ _ conducted
  rw [rests.rest_eq] at told
  refine ⟨_, acts_perform id live _ told _ (id.afterCall group ready) rfl ?_⟩
  intro other found
  obtain rfl := Option.some.inj ((group?_afterCall id live).symm.trans found)
  exact usable

/-- The group is made ready for a call, and its workers wait for a command. -/
structure Ready (world : World) (fleet : Fleet) (ready : World) (last : Fleet) (group : Group)
    (stores : Nat → ResultStore) : Prop where
  prepare : Acts id.prepare.run world fleet (.ok ()) ready last
  live : ready.group? id = some group
  manned : 0 < group.size
  usable : group.isUnusable = false
  rests : last.AtRest group stores
  tended : id.Tends world fleet ready last

/-- A call whose ranks all answer with one partition gives the frame of these partitions. -/
theorem acts_callFrame (begun : id.Ready world fleet ready last group stores)
    (ordered : arguments.IsOrdered)
    (prepares : PreparedCall.prepare ready.isLive computation arguments = .ok prepared)
    (partition : Nat → Batch) (later : Nat → ResultStore)
    (answered : ∀ rank < group.size, Request.outcome? last.registry group.size ready.environment
      computation arguments prepared stores rank =
        some (.ok (.distributed (partition rank)), later rank)) :
    Acts (id.callFrame computation arguments).run world fleet
      (.ok (id.frameOf group ready partition)) (id.afterCall group ready)
      (last.rest group (storedAfter ready partition later)) := by
  obtain ⟨left, performed⟩ := acts_perform_partition id begun.live begun.manned begun.usable
    begun.rests ordered prepares partition later answered
  have submitted : Acts (id.submit computation arguments).run world fleet
      (.ok (left, .ok (.frame (id.frameOf group ready partition)))) (id.afterCall group ready)
      (last.rest group (storedAfter ready partition later)) := by
    rw [submit_eq]
    exact Acts.bindOk begun.prepare performed
  exact Acts.bindOk submitted rfl

/-- What comes to its end in two steps comes to an end in the first one. -/
theorem acts_first {α β : Type} {first : Coordinating α} {next : α → Coordinating β}
    {value : β} {after : World} {left : Fleet}
    (acts : Acts (first >>= next).run world fleet (.ok value) after left) :
    ∃ result between middle, Acts first.run world fleet (.ok result) between middle ∧
      Acts (next result).run between middle (.ok value) after left := by
  unfold Acts at acts
  rw [Coordinating.run_bind, Dialogue.run_bind] at acts
  obtain ⟨⟨⟨answer, between⟩, middle⟩, begun, continued⟩ := Option.bind_eq_some_iff.mp acts
  cases answer with
  | error stop =>
    obtain ⟨same, -⟩ := Prod.mk.inj (Option.some.inj continued)
    obtain ⟨wrong, -⟩ := Prod.mk.inj same
    cases wrong
  | ok result => exact ⟨result, between, middle, begun, continued⟩

/-- To take over a result gives a value exactly if it is one. -/
theorem acts_ofExcept {α : Type} {result : Except Failure α} {value : α} {after : World}
    {left : Fleet} (acts : Acts (Coordinating.ofExcept result).run world fleet (.ok value) after
      left) : result = .ok value := by
  cases result with
  | error failure =>
    obtain ⟨same, -⟩ := Prod.mk.inj (Option.some.inj acts)
    obtain ⟨wrong, -⟩ := Prod.mk.inj same
    cases wrong
  | ok found =>
    obtain ⟨same, -⟩ := Prod.mk.inj (Option.some.inj acts)
    obtain ⟨found, -⟩ := Prod.mk.inj same
    exact congrArg Except.ok (Except.ok.inj found)

/-- What comes of a call on a ready group that is answered. -/
theorem answered_of_perform (begun : id.Ready world fleet ready last group stores)
    (ordered : arguments.IsOrdered) (left : CallArguments) (given : Answer) (after : World)
    (rest : Fleet)
    (performed : Acts (id.perform computation arguments).run ready last (.ok (left, .ok given)) after
      rest) :
    ∃ prepared, PreparedCall.prepare ready.isLive computation arguments = .ok prepared ∧
      ∃ (output : Nat → Output) (later : Nat → ResultStore), ∀ rank < group.size,
        Request.outcome? last.registry group.size ready.environment computation arguments prepared
          stores rank = some (.ok (output rank), later rank) := by
  unfold Acts at performed
  rw [run_perform id computation arguments ready group begun.live, Dialogue.run_bind] at performed
  obtain ⟨⟨⟨called, later⟩, between⟩, talked, concluded⟩ := Option.bind_eq_some_iff.mp performed
  obtain ⟨rfl, answered⟩ := Group.ends_submit_answered begun.rests.sized begun.manned begun.usable
    ready.isLive ready.environment (.ofCounter ready.calls) computation arguments ordered called later
    between (begun.rests.rest_eq.symm ▸ talked)
  have noted := World.group?_noted ready.counted id later later begun.live
  obtain ⟨answer, final, acts, -, replied⟩ := acts_conclude id later.generation called
    (ready.counted.noted id later) between fun other found => by
      obtain rfl := Option.some.inj (noted.symm.trans found)
      exact begun.usable
  have whole := Dialogue.run_bind Fleet.outside
    ((id.conclude later.generation called).run (ready.counted.noted id later))
    (fun reached => .done ((.ok reached.1 : Except Stop _), reached.2)) between
  rw [acts] at whole
  obtain ⟨same, -⟩ := Prod.mk.inj (Option.some.inj (whole.symm.trans concluded))
  obtain ⟨same, -⟩ := Prod.mk.inj same
  obtain ⟨-, rfl⟩ := Prod.mk.inj (Except.ok.inj same)
  exact answered (replied ⟨given, rfl⟩)

/-- A call that gives a frame was answered by every rank without a failure. -/
theorem answered_of_callFrame (inSync : world.InSync id fleet) (ordered : arguments.IsOrdered)
    (frame : Frame) (after : World) (rest : Fleet)
    (called : Acts (id.callFrame computation arguments).run world fleet (.ok frame) after rest) :
    ∃ ready last group stores, id.Ready world fleet ready last group stores ∧
      ∃ prepared, PreparedCall.prepare ready.isLive computation arguments = .ok prepared ∧
        ∃ (output : Nat → Output) (later : Nat → ResultStore), ∀ rank < group.size,
          Request.outcome? last.registry group.size ready.environment computation arguments prepared
            stores rank = some (.ok (output rank), later rank) := by
  obtain ⟨⟨left, answer⟩, between, middle, submitted, further⟩ := acts_first called
  obtain ⟨given, _, _, fine, -⟩ := acts_first further
  obtain rfl := acts_ofExcept fine
  rw [submit_eq] at submitted
  obtain ⟨_, ready, last, prepare, performed⟩ := acts_first submitted
  obtain ⟨_, _, _, prepareToo, tended, -⟩ := prepare_inSync id inSync
  obtain ⟨-, rfl, rfl⟩ := prepareToo.unique prepare
  rename World => ready
  cases live : ready.group? id with
  | none =>
    unfold Acts at performed
    rw [run_perform_none id computation arguments ready live] at performed
    obtain ⟨same, -⟩ := Prod.mk.inj (Option.some.inj performed)
    obtain ⟨wrong, -⟩ := Prod.mk.inj same
    cases wrong
  | some group =>
    obtain ⟨manned, usable, stores, rests⟩ := tended.inSync group live
    have begun : id.Ready world fleet ready _ group stores :=
      ⟨prepare, live, manned, usable, rests, tended⟩
    exact ⟨ready, _, group, stores, begun,
      answered_of_perform id begun ordered left given between middle performed⟩

end SpawnerId

end Rankwise

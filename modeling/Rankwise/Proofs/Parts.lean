import Rankwise.Proofs.Meanwhile

/-!
# The parts of what clients do

Whatever a client does with spawners is put together from a few parts, each of which concerns one
spawner: a group is started if there is none, results are freed, one talks with the live group, a
group that cannot be used any more is retired, and so on (`Part`). All else changes no spawner. So
what holds for each part holds for whatever clients do, in any order: a run of the coordinator
passes through stages, one for each part (`Passes`), and the stages of clients' deeds ask of the
outside what the deeds ask (`Deeds.passes`).
-/

namespace Rankwise

open Environment (GroupOptions)

/-- With these answers, acting comes to this value and leaves this behind. -/
def Performed {α : Type} (acting : Acting α) (world : World) (transcript : Transcript) (value : α)
    (later : World) : Prop :=
  (acting.run world).Conducted transcript (value, later)

namespace Performed

variable {α β : Type} {world last : World} {transcript : Transcript}

/-- Two actions are done one after the other exactly if the first is done and the second is done
from where it has led. -/
theorem bind_iff (acting : Acting α) (continuation : α → Acting β) (result : β) :
    Performed (acting >>= continuation) world transcript result last ↔
      ∃ first value middle second, transcript = first ++ second ∧
        Performed acting world first value middle ∧
        Performed (continuation value) middle second result last := by
  constructor
  · intro performed
    obtain ⟨first, ⟨value, middle⟩, second, split, begun, ended⟩ :=
      (Dialogue.conducted_bind (acting.run world) (fun reached => (continuation reached.1).run reached.2)
        transcript (result, last)).mp performed
    exact ⟨first, value, middle, second, split, begun, ended⟩
  · rintro ⟨first, value, middle, second, split, begun, ended⟩
    exact (Dialogue.conducted_bind (acting.run world)
      (fun reached => (continuation reached.1).run reached.2) transcript (result, last)).mpr
        ⟨first, (value, middle), second, split, begun, ended⟩

/-- An action that cannot fail is done on its own, and then the second one. -/
theorem lift_iff (acting : Acting α) (continuation : α → Coordinating β) (result : Except Stop β) :
    Performed (liftM acting >>= continuation : Coordinating β).run world transcript result last ↔
      ∃ first value middle second, transcript = first ++ second ∧
        Performed acting world first value middle ∧
        Performed (continuation value).run middle second result last := by
  have same : (liftM acting >>= continuation : Coordinating β).run =
      acting >>= fun value => (continuation value).run :=
    funext (Coordinating.run_lift acting continuation)
  rw [same]
  exact bind_iff acting (fun value => (continuation value).run) result

/-- What asks for nothing comes to what it comes to. -/
theorem of_done {acting : Acting α} {value result : α} {reached : World}
    (performed : Performed acting world transcript value last)
    (done : acting.run world = .done (result, reached)) :
    transcript = [] ∧ value = result ∧ last = reached := by
  unfold Performed at performed
  rw [done] at performed
  exact performed.of_done

/-- What asks for nothing is performed in one way only. -/
theorem silent_iff (make : World → α × World) (value : α) :
    Performed (modifyGet make) world transcript value last ↔
      transcript = [] ∧ (value, last) = make world :=
  Dialogue.conducted_done (make world) (value, last) transcript

end Performed

/-! Parts. -/

/-- What is done with a spawner in one go. -/
inductive Part where
  /-- A group is started if there is none. -/
  | ensure
  /-- Results are freed that are to be freed. -/
  | free
  /-- One talks with the live group to make a call. -/
  | call (isLive : Handle → Bool) (surroundings : List (String × String)) (name : CallId)
      (computation : Computation) (arguments : CallArguments)
  /-- One talks with the live group to fetch a result. -/
  | fetch (result : ResultId)
  /-- The live group is retired if it cannot be used any more. -/
  | retire
  /-- The live group is ended. -/
  | reset
  /-- A further share of the spawner is taken. -/
  | keep
  /-- A share of the spawner is given up. -/
  | leave
  /-- It is noted that a result is to be freed. -/
  | note (generation : Nat) (result : ResultId)

/-- The part, done with a spawner. Only a spawner that is not gone can be shared. -/
def Part.perform (id : SpawnerId) : Part → Acting Unit
  | ensure => do let _ ← id.ensureGroup.run
  | free => id.flush
  | call isLive surroundings name computation arguments => do
    let _ ← id.talk (Group.submit isLive surroundings name computation arguments)
  | fetch result => do let _ ← id.talk (Group.gatherResult result).run
  | retire => id.retireIfUnusable
  | reset => do let _ ← id.reset.run
  | keep => do if ((← get).spawner? id).isSome then id.share
  | leave => id.release
  | note generation result => id.notePending generation result

/-- A part that was done with a spawner, with what was asked of the outside. -/
structure Stage where
  id : SpawnerId
  part : Part
  before : World
  inquiries : Transcript
  after : World

/-- It was done so. -/
def Stage.IsPerformed (stage : Stage) : Prop :=
  Performed (stage.part.perform stage.id) stage.before stage.inquiries () stage.after

/-- What was asked of the outside in several stages. -/
def inquiriesOf (stages : List Stage) : Transcript := stages.flatMap Stage.inquiries

/-- The coordinator passes through the stages. Between them it creates spawners, or does what has
nothing to do with spawners. -/
inductive Passes : World → List Stage → World → Prop
  | nil (world : World) : Passes world [] world
  | part (stage : Stage) (performed : stage.IsPerformed) {stages : List Stage} {last : World}
      (later : Passes stage.after stages last) : Passes stage.before (stage :: stages) last
  | besides (world middle : World) (same : middle.spawners = world.spawners) {stages : List Stage}
      {last : World} (later : Passes middle stages last) : Passes world stages last
  | create (world : World) (options : GroupOptions) {stages : List Stage} {last : World}
      (later : Passes { world with spawners := world.spawners ++ [({ options } : Spawner)] } stages
        last) : Passes world stages last

/-- Stages may be passed through in two goes. -/
theorem Passes.append {world middle last : World} {first second : List Stage}
    (begun : Passes world first middle) (ended : Passes middle second last) :
    Passes world (first ++ second) last := by
  induction begun with
  | nil world => exact ended
  | part stage performed _ inductionHypothesis =>
    exact .part stage performed (inductionHypothesis ended)
  | besides world middle same _ inductionHypothesis =>
    exact .besides world middle same (inductionHypothesis ended)
  | create world options _ inductionHypothesis =>
    exact .create world options (inductionHypothesis ended)

/-- Acting is put together from parts, from creating spawners and from what changes no spawner. -/
inductive InParts : {α : Type} → Acting α → Prop
  | bind {α β : Type} {acting : Acting α} {continuation : α → Acting β} (first : InParts acting)
      (second : ∀ value, InParts (continuation value)) : InParts (acting >>= continuation)
  | besides {α : Type} (make : World → α × World)
      (same : ∀ world, (make world).2.spawners = world.spawners) : InParts (modifyGet make)
  | part {α : Type} (id : SpawnerId) (part : Part) (acting : Acting α)
      (same : part.perform id = do let _ ← acting) : InParts acting
  | create (options : GroupOptions) : InParts (SpawnerId.create options)

namespace InParts

variable {α β : Type}

/-- What is put together from parts passes through stages, and asks for nothing but what they ask
for. -/
theorem passes {acting : Acting α} (inParts : InParts acting) {world later : World}
    {transcript : Transcript} {value : α} (performed : Performed acting world transcript value later) :
    ∃ stages, Passes world stages later ∧ inquiriesOf stages = transcript := by
  induction inParts generalizing world later transcript with
  | bind _ _ first second =>
    obtain ⟨begun, value, middle, ended, rfl, starts, goesOn⟩ :=
      (Performed.bind_iff _ _ _).mp performed
    obtain ⟨early, passesFirst, rfl⟩ := first starts
    obtain ⟨late, passesThen, rfl⟩ := second value goesOn
    exact ⟨early ++ late, passesFirst.append passesThen, List.flatMap_append⟩
  | besides make same =>
    obtain ⟨rfl, made⟩ := (Performed.silent_iff make value).mp performed
    obtain ⟨-, rfl⟩ := Prod.mk.inj made
    exact ⟨[], .besides world _ (same world) (.nil _), rfl⟩
  | part id part acting same =>
    have done : Performed (part.perform id) world transcript () later := by
      rw [same]
      exact (Performed.bind_iff _ _ _).mpr
        ⟨transcript, value, later, [], (List.append_nil _).symm, performed, .done _⟩
    exact ⟨[⟨id, part, world, transcript, later⟩],
      .part ⟨id, part, world, transcript, later⟩ done (.nil later), List.append_nil _⟩
  | create options =>
    obtain ⟨rfl, -, rfl⟩ := Dialogue.Conducted.of_done performed
    exact ⟨[], .create world options (.nil _), rfl⟩

/-- To give a value consists of no parts. -/
theorem pure (value : α) : InParts (Pure.pure value) :=
  besides (fun world => (value, world)) fun _ => rfl

/-- A part that gives no answer. -/
theorem silent (id : SpawnerId) (piece : Part) : InParts (piece.perform id) :=
  part id piece _ bind_pure_unit.symm

/-- Composed acting that stops at a failure. -/
theorem bindExcept {acting : Coordinating α} {continuation : α → Coordinating β}
    (first : InParts acting.run) (second : ∀ value, InParts (continuation value).run) :
    InParts (acting >>= continuation).run := by
  apply bind first
  intro answer
  cases answer with
  | ok value => exact second value
  | error stop => exact pure _

end InParts

/-! Acting within bounds. -/

/-- Kept tables stay as they are, and so do the shares of handles that are not touched. Calls and
handles are only added. -/
structure World.Keeps (touches : Nat → Prop) (before after : World) : Prop where
  tables : after.tables = before.tables
  calls : before.calls ≤ after.calls
  keys : before.shares.length ≤ after.shares.length
  shares : ∀ key < before.shares.length, ¬ touches key → after.shares[key]? = before.shares[key]?

/-- No spawner is changed either. -/
structure World.Besides (touches : Nat → Prop) (before after : World) : Prop
    extends World.Keeps touches before after where
  spawners : after.spawners = before.spawners

/-- Acting is put together from parts that concern certain spawners and from what changes nothing
but shares of certain handles, by their keys. -/
inductive Within (concerns : SpawnerId → Prop) (touches : Nat → Prop) : {α : Type} → Acting α → Prop
  | bind {α β : Type} {acting : Acting α} {continuation : α → Acting β}
      (first : Within concerns touches acting)
      (second : ∀ value, Within concerns touches (continuation value)) :
      Within concerns touches (acting >>= continuation)
  | besides {α : Type} (make : World → α × World)
      (kept : ∀ world, World.Besides touches world (make world).2) :
      Within concerns touches (modifyGet make)
  | part {α : Type} (id : SpawnerId) (concerned : concerns id) (part : Part) (acting : Acting α)
      (same : part.perform id = do let _ ← acting) : Within concerns touches acting

/-- The handle is one of a spawner that is concerned, and it may be touched. -/
structure Handle.IsWithin (concerns : SpawnerId → Prop) (touches : Nat → Prop) (handle : Handle) :
    Prop where
  owned : concerns handle.owner
  keyed : touches handle.key

section Bounds

variable {α β : Type} {concerns : SpawnerId → Prop} {touches : Nat → Prop}

namespace World.Keeps

/-- A world keeps to itself. -/
theorem refl (world : World) : World.Keeps touches world world :=
  ⟨rfl, Nat.le_refl _, Nat.le_refl _, fun _ _ _ => rfl⟩

/-- What is kept in two steps is kept. -/
theorem trans {world middle later : World} (first : World.Keeps touches world middle)
    (second : World.Keeps touches middle later) : World.Keeps touches world later where
  tables := second.tables.trans first.tables
  calls := first.calls.trans second.calls
  keys := first.keys.trans second.keys
  shares key inside free :=
    (second.shares key (inside.trans_le first.keys) free).trans (first.shares key inside free)

end World.Keeps

namespace World.Besides

/-- Nothing besides has changed where nothing was done. -/
theorem refl (world : World) : World.Besides touches world world := ⟨.refl world, rfl⟩

/-- Shares of a handle that may be touched. -/
theorem modify (world : World) {key : Nat} (touched : touches key) (update : Nat → Nat) :
    World.Besides touches world { world with shares := world.shares.modify key update } where
  tables := rfl
  calls := Nat.le_refl _
  keys := by rw [List.length_modify]
  shares other _ free := List.getElem?_modify_ne _ _ fun (same : key = other) => free (same ▸ touched)
  spawners := rfl

/-- To count the shares of a handle that may be touched is one of the things besides. -/
theorem set (world : World) {key : Nat} (touched : touches key) (count : Nat) :
    World.Besides touches world { world with shares := world.shares.set key count } where
  tables := rfl
  calls := Nat.le_refl _
  keys := by rw [List.length_set]
  shares other _ free := List.getElem?_set_ne fun (same : key = other) => free (same ▸ touched)
  spawners := rfl

end World.Besides

namespace Within

/-- What stays within bounds is put together from parts. -/
theorem inParts {acting : Acting α} (within : Within concerns touches acting) : InParts acting := by
  induction within with
  | bind _ _ first second => exact .bind first second
  | besides make kept => exact .besides make fun world => (kept world).spawners
  | part id _ part acting same => exact .part id part acting same

/-- The same without any bounds. -/
theorem anyway {acting : Acting α} (within : Within (fun _ => True) (fun _ => True) acting) :
    InParts acting := within.inParts

/-- To give a value stays within all bounds. -/
theorem pure (value : α) : Within concerns touches (Pure.pure value) :=
  besides (fun world => (value, world)) World.Besides.refl

/-- To look around stays within all bounds. -/
theorem look : Within concerns touches MonadState.get :=
  besides (fun world => (world, world)) World.Besides.refl

/-- A change besides stays within the bounds. -/
theorem modify (update : World → World) (kept : ∀ world, World.Besides touches world (update world)) :
    Within concerns touches (modify update : Acting Unit) :=
  besides (fun world => ((), update world)) kept

/-- To do something with each item stays within the bounds if this does for each. -/
theorem forM (items : List α) (acting : α → Acting Unit)
    (each : ∀ item ∈ items, Within concerns touches (acting item)) :
    Within concerns touches (items.forM acting) := by
  induction items with
  | nil => exact pure _
  | cons item rest inductionHypothesis =>
    obtain ⟨here, others⟩ := List.forall_mem_cons.mp each
    exact bind here fun _ => inductionHypothesis others

/-- A part that gives no answer. -/
theorem silent (id : SpawnerId) (concerned : concerns id) (piece : Part) :
    Within concerns touches (piece.perform id) :=
  part id concerned piece _ bind_pure_unit.symm

/-- Composed acting that stops at a failure. -/
theorem bindExcept {acting : Coordinating α} {continuation : α → Coordinating β}
    (first : Within concerns touches acting.run)
    (second : ∀ value, Within concerns touches (continuation value).run) :
    Within concerns touches (acting >>= continuation).run := by
  apply bind first
  intro answer
  cases answer with
  | ok value => exact second value
  | error stop => exact pure _

/-- An action that cannot fail stays within the bounds among those that can. -/
theorem lift {acting : Acting α} (within : Within concerns touches acting) :
    Within concerns touches (liftM acting : Coordinating α).run := bind within fun _ => pure _

end Within

/-! What clients do. -/

namespace Handle

/-- To hand out a handle stays within all bounds. -/
theorem within_create (owner : SpawnerId) (generation : Nat) (id : ResultId) :
    Within concerns touches (create owner generation id) :=
  .besides (fun world => (({ key := world.shares.length, id, generation, owner } : Handle),
    { world with shares := world.shares ++ [1] })) fun world => {
      tables := rfl
      calls := Nat.le_refl _
      keys := by
        rw [List.length_append]
        exact Nat.le_add_right _ _
      shares := fun _ inside _ => List.getElem?_append_left inside
      spawners := rfl }

/-- To take a share stays within the bounds if the handle may be touched. -/
theorem within_share (handle : Handle) (touched : touches handle.key) :
    Within concerns touches handle.share :=
  .modify _ fun world => .modify world touched (· + 1)

/-- To free a result stays within the bounds if they concern its spawner. -/
theorem within_free (owner : SpawnerId) (concerned : concerns owner) (generation : Nat)
    (id : ResultId) : Within concerns touches (owner.free generation id) := by
  apply Within.bind .look
  intro world
  split
  · exact .pure _
  · split
    · refine Within.bind (.silent owner concerned (.note generation id)) fun _ => ?_
      exact .silent owner concerned .free
    · exact .pure _

/-- To give up a share stays within the bounds if the handle does. -/
theorem within_release (handle : Handle) (isWithin : handle.IsWithin concerns touches) :
    Within concerns touches handle.release := by
  apply Within.bind .look
  intro world
  split
  · refine Within.bind (.modify _ fun world => .set world isWithin.keyed _) fun _ => ?_
    split
    · exact within_free _ isWithin.owned _ _
    · exact .pure _
  · exact .pure _

/-- To give up a share while the group is in use stays within the bounds if the handle does. -/
theorem within_abandon (handle : Handle) (isWithin : handle.IsWithin concerns touches) :
    Within concerns touches handle.abandon := by
  apply Within.bind .look
  intro world
  split
  · refine Within.bind (.modify _ fun world => .set world isWithin.keyed _) fun _ => ?_
    split
    · exact .silent handle.owner isWithin.owned (.note handle.generation handle.id)
    · exact .pure _
  · exact .pure _

/-- To fetch from the live group stays within the bounds if they concern its spawner. -/
theorem within_gatherFrom (handle : Handle) (concerned : concerns handle.owner) :
    Within concerns touches handle.gatherFrom.run := by
  apply Within.bindExcept (.lift (.part handle.owner concerned (.fetch handle.id) _ rfl))
  intro answer
  apply Within.bindExcept (.lift (.silent handle.owner concerned .retire))
  intro _
  exact .pure _

/-- To fetch if the group is live stays within the bounds if they concern its spawner. -/
theorem within_gatherLive (handle : Handle) (concerned : concerns handle.owner) :
    Within concerns touches handle.gatherLive.run := by
  apply Within.bindExcept (.lift .look)
  intro world
  split
  · exact .pure _
  · split
    · exact .bindExcept (.pure _) fun _ => within_gatherFrom handle concerned
    · exact within_gatherFrom handle concerned

/-- To fetch a result stays within the bounds if they concern its spawner. -/
theorem within_gather (handle : Handle) (concerned : concerns handle.owner) :
    Within concerns touches handle.gather.run := by
  have frees : Within concerns touches (do
      (handle.owner.flush : Acting Unit)
      handle.gatherLive : Coordinating Batch).run :=
    .bindExcept (.lift (.silent handle.owner concerned .free)) fun _ =>
      within_gatherLive handle concerned
  apply Within.bindExcept (.lift .look)
  intro world
  dsimp only
  split
  · exact .bindExcept (.pure _) fun _ => frees
  · exact frees

end Handle

namespace Frame

/-- To take a share of a frame stays within the bounds if its handle may be touched. -/
theorem within_share (frame : Frame)
    (touched : ∀ handle, frame.handle? = some handle → touches handle.key) :
    Within concerns touches frame.share := by
  cases frame with
  | collected table => exact .pure _
  | distributed partitioned handle =>
    exact .bind (handle.within_share (touched handle rfl)) fun _ => .pure _

/-- To give up a frame stays within the bounds if its handle does. -/
theorem within_release (frame : Frame)
    (isWithin : ∀ handle, frame.handle? = some handle → handle.IsWithin concerns touches) :
    Within concerns touches frame.release := by
  cases frame with
  | collected table => exact .pure _
  | distributed partitioned handle => exact handle.within_release (isWithin handle rfl)

/-- To fetch the table of a frame stays within the bounds if they concern its spawner. -/
theorem within_table (frame : Frame)
    (concerned : ∀ handle, frame.handle? = some handle → concerns handle.owner) :
    Within concerns touches frame.table.run := by
  cases frame with
  | collected table => exact .pure _
  | distributed partitioned handle => exact handle.within_gather (concerned handle rfl)

/-- To fetch a frame and give it up stays within the bounds if its handle does. -/
theorem within_collect (frame : Frame)
    (isWithin : ∀ handle, frame.handle? = some handle → handle.IsWithin concerns touches) :
    Within concerns touches frame.collect.run := by
  apply Within.bindExcept (frame.within_table fun handle same => (isWithin handle same).owned)
  intro table
  apply Within.bindExcept (.lift (frame.within_release isWithin))
  intro _
  exact .pure _

end Frame

namespace Answer

mutual

/-- To hand out the handles for a reply stays within all bounds. -/
theorem within_ofReply (owner : SpawnerId) (generation : Nat) (reply : Reply) :
    Within concerns touches (ofReply owner generation reply) := by
  cases reply with
  | value found => exact .pure _
  | partitioned found =>
    exact .bind (Handle.within_create owner generation found.id) fun _ => .pure _
  | tuple items => exact .bind (within_ofReplies owner generation items) fun _ => .pure _
  | map entries => exact .bind (within_ofEntries owner generation entries) fun _ => .pure _

/-- To hand out the handles for several replies stays within all bounds. -/
theorem within_ofReplies (owner : SpawnerId) (generation : Nat) (items : List Reply) :
    Within concerns touches (ofReplies owner generation items) := by
  cases items with
  | nil => exact .pure _
  | cons item rest =>
    apply Within.bind (within_ofReply owner generation item)
    intro _
    exact .bind (within_ofReplies owner generation rest) fun _ => .pure _

/-- To hand out the handles for the entries of a reply stays within all bounds. -/
theorem within_ofEntries (owner : SpawnerId) (generation : Nat) (entries : List (String × Reply)) :
    Within concerns touches (ofEntries owner generation entries) := by
  cases entries with
  | nil => exact .pure _
  | cons entry rest =>
    apply Within.bind (within_ofReply owner generation entry.2)
    intro _
    exact .bind (within_ofEntries owner generation rest) fun _ => .pure _

end

/-- To take an answer for a frame consists of parts. -/
theorem inParts_toFrame (answer : Answer) : InParts answer.toFrame.run := by
  have unexpected (expected : String) : InParts (answer.unexpected expected : Coordinating Frame).run :=
    Within.anyway (.bindExcept (.lift (.forM _ _ fun frame _ => frame.within_release fun _ _ =>
      ⟨trivial, trivial⟩)) fun _ => .pure _)
  cases answer with
  | frame found => exact .pure _
  | value found => exact unexpected "distributed frame"
  | tuple items => exact unexpected "distributed frame"
  | map entries => exact unexpected "distributed frame"

end Answer

/-- All handles of which shares are given up during a call are within bounds. -/
def Meanwhile.IsWithin (meanwhile : Meanwhile) (concerns : SpawnerId → Prop) (touches : Nat → Prop) :
    Prop :=
  ∀ handle ∈ meanwhile.early ++ meanwhile.late ++ meanwhile.last, handle.IsWithin concerns touches

namespace SpawnerId

variable (id : SpawnerId) (concerned : concerns id) (meanwhile : Meanwhile)
  (isWithin : meanwhile.IsWithin concerns touches)

include concerned

/-- To answer a call stays within the bounds if they concern its spawner. -/
theorem within_answer (generation : Nat) (called : CallEnd) :
    Within concerns touches (id.answer generation called) := by
  unfold answer
  split
  · exact .bind (Answer.within_ofReply id generation _) fun _ => .pure _
  · apply Within.bind
    · apply Within.forM
      intro orphan _
      exact .silent id concerned (.note generation orphan.id)
    · intro _
      exact .pure _

/-- To conclude a call stays within the bounds if they concern its spawner. -/
theorem within_conclude (generation : Nat) (called : CallEnd) :
    Within concerns touches (id.conclude generation called) := by
  apply Within.bind (id.within_answer concerned generation called)
  intro answer
  refine Within.bind (.silent id concerned .retire) fun _ => ?_
  exact .pure _

include isWithin in
/-- To prepare a call stays within the bounds if they concern its spawner and the shares that are
given up. -/
theorem within_prepareWhile : Within concerns touches (id.prepareWhile meanwhile).run := by
  apply Within.bindExcept (.part id concerned .ensure _ rfl)
  intro _
  apply Within.bindExcept (.lift (.forM _ _ fun handle member => handle.within_abandon
    (isWithin handle (List.mem_append_left _ (List.mem_append_left _ member)))))
  intro _
  apply Within.bindExcept (.lift (.silent id concerned .free))
  intro _
  exact .lift (.forM _ _ fun handle member => handle.within_abandon
    (isWithin handle (List.mem_append_left _ (List.mem_append_right _ member))))

omit concerned

/-- What is left of a call that was counted. -/
def performing (computation : Computation) (arguments : CallArguments) (world : World) :
    Acting (Except Stop (CallArguments × Except Failure Answer)) :=
  match world.group? id with
  | some group => do
    match ← id.talk (callTalk computation arguments world) with
    | some called => do return .ok (← id.conclude group.generation called)
    | none => return .error (.failed notStarted)
  | none => return .error (.failed notStarted)

/-- First a call is counted. -/
theorem perform_eq (computation : Computation) (arguments : CallArguments) :
    (id.perform computation arguments).run =
      (modifyGet fun world => (world, world.counted)) >>= id.performing computation arguments := by
  funext world
  have counted : ((modifyGet fun world => (world, world.counted)) >>=
      id.performing computation arguments : Acting _).run world =
        (id.performing computation arguments world).run world.counted := rfl
  refine Eq.trans ?_ counted.symm
  unfold performing
  cases live : world.group? id with
  | none => exact id.run_perform_none computation arguments world live
  | some group =>
    refine (id.run_perform computation arguments world group live).trans ?_
    dsimp only
    rw [StateT.run_bind, id.run_talk _ world.counted group live]
    refine Eq.trans ?_ (Dialogue.bind_assoc _ _ _).symm
    exact congrArg (Dialogue.bind _) (funext fun _ => rfl)

include concerned

/-- To perform a call stays within the bounds if they concern its spawner. -/
theorem within_perform (computation : Computation) (arguments : CallArguments) :
    Within concerns touches (id.perform computation arguments).run := by
  rw [perform_eq]
  apply Within.bind (.besides _ fun world =>
    ⟨⟨rfl, Nat.le_succ _, Nat.le_refl _, fun _ _ _ => rfl⟩, rfl⟩)
  intro world
  unfold performing
  split
  · apply Within.bind (.part id concerned (.call world.isLive world.environment
      (.ofCounter world.calls) computation arguments) _ rfl)
    intro called
    split
    · exact .bind (id.within_conclude concerned _ _) fun _ => .pure _
    · exact .pure _
  · exact .pure _

include isWithin in
/-- To make a call stays within the bounds if they concern its spawner and the shares that are given
up. -/
theorem within_submitWhile (computation : Computation) (arguments : CallArguments) :
    Within concerns touches (id.submitWhile meanwhile computation arguments).run := by
  apply Within.bindExcept (id.within_prepareWhile concerned meanwhile isWithin)
  intro _
  apply Within.bindExcept (id.within_perform concerned computation arguments)
  intro result
  apply Within.bindExcept (.lift (.forM _ _ fun handle member => handle.within_abandon
    (isWithin handle (List.mem_append_right _ member))))
  intro _
  exact .pure _

end SpawnerId

end Bounds

/-- What a client can do. -/
inductive Deed where
  /-- Adds a spawner. -/
  | create (options : GroupOptions)
  /-- Makes a call, while shares of results are given up. -/
  | submit (id : SpawnerId) (meanwhile : Meanwhile) (computation : Computation)
      (arguments : CallArguments)
  /-- Puts a table onto the workers, while shares of results are given up. -/
  | scatter (id : SpawnerId) (meanwhile : Meanwhile) (table : Batch)
  /-- Fetches a result. -/
  | fetch (handle : Handle)
  /-- Fetches a frame and gives it up. -/
  | collect (frame : Frame)
  /-- Takes a further share of a result. -/
  | share (handle : Handle)
  /-- Gives up a share of a result. -/
  | release (handle : Handle)
  /-- Gives up a share of a result while the group of its spawner is in use. -/
  | abandon (handle : Handle)
  /-- Ends the live group of a spawner. -/
  | reset (id : SpawnerId)
  /-- Takes a further share of a spawner. -/
  | keep (id : SpawnerId)
  /-- Gives up a share of a spawner. -/
  | leave (id : SpawnerId)

/-- Does it, whatever the answer. -/
def Deed.perform : Deed → Acting Unit
  | create options => do let _ ← SpawnerId.create options
  | submit id meanwhile computation arguments => do
    let _ ← (id.submitWhile meanwhile computation arguments).run
  | scatter id meanwhile table => do let _ ← (id.scatterWhile meanwhile table).run
  | fetch handle => do let _ ← handle.gather.run
  | collect frame => do let _ ← frame.collect.run
  | share handle => handle.share
  | release handle => handle.release
  | abandon handle => handle.abandon
  | reset id => do let _ ← id.reset.run
  | keep id => do if ((← get).spawner? id).isSome then id.share
  | leave id => id.release

/-- All that clients do consists of parts. -/
theorem Deed.inParts (deed : Deed) : InParts deed.perform := by
  have discarding {α : Type} {acting : Acting α} (inParts : InParts acting) :
      InParts (do let _ ← acting) := .bind inParts fun _ => .pure _
  have anywhere (handle : Handle) : handle.IsWithin (fun _ => True) fun _ => True :=
    ⟨trivial, trivial⟩
  have submits (id : SpawnerId) (meanwhile : Meanwhile) (computation : Computation)
      (arguments : CallArguments) :
      InParts (id.submitWhile meanwhile computation arguments).run :=
    Within.anyway (id.within_submitWhile trivial meanwhile (fun handle _ => anywhere handle) computation
      arguments)
  cases deed with
  | create options => exact discarding (.create options)
  | submit id meanwhile computation arguments =>
    exact discarding (submits id meanwhile computation arguments)
  | scatter id meanwhile table =>
    refine discarding (.bindExcept (submits id meanwhile _ _) fun result => ?_)
    exact .bindExcept (.pure _) Answer.inParts_toFrame
  | fetch handle => exact discarding (Within.anyway (handle.within_gather trivial))
  | collect frame =>
    exact discarding (Within.anyway (frame.within_collect fun handle _ => anywhere handle))
  | share handle => exact Within.anyway (handle.within_share trivial)
  | release handle => exact Within.anyway (handle.within_release (anywhere handle))
  | abandon handle => exact Within.anyway (handle.within_abandon (anywhere handle))
  | reset id => exact .silent id .reset
  | keep id => exact .silent id .keep
  | leave id => exact .silent id .leave

/-- Clients have done these deeds one after the other, and this is what was asked of the outside in
each of them. -/
inductive Deeds : World → List (Deed × Transcript) → World → Prop
  | nil (world : World) : Deeds world [] world
  | cons (deed : Deed) {world middle last : World} {transcript : Transcript}
      {rest : List (Deed × Transcript)} (performed : Performed deed.perform world transcript () middle)
      (later : Deeds middle rest last) : Deeds world ((deed, transcript) :: rest) last

/-- Deeds pass through stages, which ask of the outside what the deeds ask. -/
theorem Deeds.passes {world last : World} {deeds : List (Deed × Transcript)}
    (done : Deeds world deeds last) :
    ∃ stages, Passes world stages last ∧ inquiriesOf stages = deeds.flatMap Prod.snd := by
  induction done with
  | nil world => exact ⟨[], .nil world, rfl⟩
  | cons deed performed _ inductionHypothesis =>
    obtain ⟨first, begun, rfl⟩ := deed.inParts.passes performed
    obtain ⟨rest, ended, same⟩ := inductionHypothesis
    refine ⟨first ++ rest, begun.append ended, ?_⟩
    rw [inquiriesOf, List.flatMap_append, List.flatMap_cons, ← same]
    rfl

end Rankwise
